import Mathlib
import Stencil.Proofs.Calls

/-!
# Stencil — where tokens and nodes stand

Places are never counted from the top: scanning moves a place on over each piece as it goes, and a
node takes the place of the token that it was built from. This module says what the places of a
template are, by counting in the text in front, and that they lose nothing of the order in which
things were written.

* `Position.after` — the place behind a text, by counting. It is where advancing leads
  (`Position.advance_start`).
* `p < q` — places in the order of a template. Every character moves a place on
  (`Position.lt_advance`), so tokens that stand one right after the other are in order
  (`Placed.pairwise_lt`).
* `Parser.Reads` — which tokens a tree was read from. Every node has a run of tokens of its own, and
  the place of the first of them; this holds of every parse (`reads_parseNodes`).
* `preorder` — all nodes of some trees, a loop before its body and its body before its siblings.
* `positions_are_exact` — places by counting, and the order of tokens and of nodes.

Loops that are never closed are where places could go wrong: their bodies are read and then dropped,
so places are left out, but none comes twice or out of turn (`Parser.Reads.sublist`).
-/

namespace Stencil

-- ---------------------------------------------------------------------------
-- Places by counting
-- ---------------------------------------------------------------------------

namespace Position

/-- The place just behind a text that starts a template: a line more than it has line feeds, and a
column more than it has characters behind the last of them. -/
def after (text : String) : Position where
  line   := 1 + text.toList.count '\n'
  column := 1 + (text.toList.rtakeWhile (· ≠ '\n')).length

/-- **Advancing counts.** -/
theorem advance_start (text : String) : start.advance text.toList = after text := by
  unfold after
  induction text.toList using List.reverseRecOn with
  | nil => rfl
  | append_singleton cs c ih =>
    rw [advance_append, ih, List.rtakeWhile_concat, List.count_append]
    by_cases hc : c = '\n'
    · subst hc
      rfl
    · simp [next, hc, Nat.add_assoc]

/-- One place comes before another: on an earlier line, or earlier on the same line. -/
instance : LT Position := ⟨fun p q => p.line < q.line ∨ p.line = q.line ∧ p.column < q.column⟩

theorem lt_iff {p q : Position} :
    p < q ↔ p.line < q.line ∨ p.line = q.line ∧ p.column < q.column := Iff.rfl

instance (p q : Position) : Decidable (p < q) := decidable_of_iff _ lt_iff.symm

theorem lt_trans {p q r : Position} (hpq : p < q) (hqr : q < r) : p < r := by
  rw [lt_iff] at hpq hqr ⊢
  omega

theorem lt_next (p : Position) (c : Char) : p < p.next c := by
  rw [lt_iff, next]
  split
  · exact .inl (Nat.lt_succ_self p.line)
  · exact .inr ⟨rfl, Nat.lt_succ_self p.column⟩

/-- Behind a text is another place than in front of it, and a later one. -/
theorem lt_advance {cs : List Char} (hSome : cs ≠ []) (p : Position) : p < p.advance cs := by
  induction cs generalizing p with
  | nil => exact absurd rfl hSome
  | cons c cs ih =>
    rw [advance_cons]
    by_cases hLast : cs = []
    · subst hLast
      exact p.lt_next c
    · exact lt_trans (p.lt_next c) (ih hLast (p.next c))

end Position

-- ---------------------------------------------------------------------------
-- Tokens
-- ---------------------------------------------------------------------------

/-- A token stands where the text in front of it leads. -/
theorem Placed.position_eq {p : Position} {before after : List Token} {t : Token}
    (h : Placed p (before ++ t :: after)) :
    t.position = p.advance (sourceOf before).toList := by
  induction before generalizing p with
  | nil => exact h.1
  | cons u before ih =>
    have hSource : (sourceOf (u :: before)).toList = u.source.toList ++ (sourceOf before).toList := by
      rw [toList_sourceOf, toList_sourceOf, List.flatMap_cons]
    rw [ih h.2, hSource, Position.advance_append]

/-- A token of a cut takes up some of the text. -/
theorem WellCut.source_ne_nil {tokens : List Token} (hCut : WellCut tokens) :
    ∀ t ∈ tokens, t.source.toList ≠ [] := by
  induction tokens with
  | nil => exact List.forall_mem_nil _
  | cons t ts ih =>
    refine List.forall_mem_cons.mpr ⟨?_, ih hCut.2⟩
    cases t with
    | text content position =>
      have hFits : TextFits content.toList ts := hCut.1
      exact hFits.nonempty
    | tag content raw position =>
      obtain ⟨inner, rfl, -⟩ := hCut.1
      simp [Token.source, tagSource]

theorem Placed.pairwise_lt {p : Position} {tokens : List Token} (h : Placed p tokens)
    (hSource : ∀ t ∈ tokens, t.source.toList ≠ []) :
    tokens.Pairwise fun t u => t.position < u.position := by
  induction tokens generalizing p with
  | nil => exact List.Pairwise.nil
  | cons t ts ih =>
    obtain ⟨hHere, hLater⟩ := List.forall_mem_cons.mp hSource
    refine List.pairwise_cons.mpr ⟨fun u hu => ?_, ih h.2 hLater⟩
    obtain ⟨before, after, rfl⟩ := List.append_of_mem hu
    -- all of `t` stands in front of `u`, and so does what is between them
    have hPlace : u.position = p.advance (t.source.toList ++ (sourceOf before).toList) := by
      rw [h.2.position_eq, Position.advance_append]
    rw [h.1, hPlace]
    exact Position.lt_advance (List.append_ne_nil_of_left_ne_nil hHere _) p

-- ---------------------------------------------------------------------------
-- Trees and the tokens that they were read from
-- ---------------------------------------------------------------------------

namespace Parser

/--
The trees were read from the tokens, one after the other, where `depth` loops are open. A token that
stands for a node by itself is that node; a loop takes the tokens from its opening tag to its closing
tag, and its body those between them; a loop that is not closed takes all that is left. Each node
stands where the first of its tokens does.
-/
inductive Reads (p : Parser) : Nat → List Token → List Node → Prop
  | nil (depth : Nat) : Reads p depth [] []
  | node {depth : Nat} {t : Token} {ts : List Token} {node : Node} {nodes : List Node}
      (means : p.meaning depth t = .ok (.node node)) (place : node.position = t.position)
      (behind : Reads p depth ts nodes) :
      Reads p depth (t :: ts) (node :: nodes)
  | loop {depth : Nat} {t closing : Token} {inner ts : List Token} {header : LoopHeader}
      {body nodes : List Node} (means : p.meaning depth t = .ok (.loop header))
      (inside : Reads p (depth + 1) inner body) (closes : closing.isTag loopEnd = true)
      (behind : Reads p depth ts nodes) :
      Reads p depth (t :: inner ++ closing :: ts)
        (.loop header.item header.collection body t.position :: nodes)
  | unclosed {depth : Nat} {t : Token} {ts : List Token} {header : LoopHeader}
      (means : p.meaning depth t = .ok (.loop header)) :
      Reads p depth (t :: ts) [.text (sourceOf (t :: ts)) t.position]

theorem position_of_meaning {p : Parser} {depth : Nat} {t : Token} {node : Node}
    (hMeaning : p.meaning depth t = .ok (.node node)) : node.position = t.position := by
  rcases meaning_node_cases hMeaning with ⟨_, rfl⟩ | ⟨_, rfl⟩ | ⟨_, _, -, rfl⟩ <;> rfl

/--
**A parse reads its trees from the tokens that it takes from the stream**: up to the stop tag where
the body is closed, and all of them where it is not.
-/
theorem reads_parseNodes (p : Parser) (stop : Option String) (s : TokenStream) :
    ∀ body, (p.parseNodes stop s).1 = .ok body → ∃ read, p.Reads s.loopDepth read body.nodes ∧
      (body.closed = true → ∃ t, stop.any t.isTag = true ∧
        s.rest = read ++ t :: (p.parseNodes stop s).2.rest) ∧
      (body.closed = false → s.rest = read) := by
  refine parseNodes_induction (P := fun stop s r => ∀ body, r.1 = .ok body →
    ∃ read, p.Reads s.loopDepth read body.nodes ∧
      (body.closed = true → ∃ t, stop.any t.isTag = true ∧ s.rest = read ++ t :: r.2.rest) ∧
      (body.closed = false → s.rest = read))
    ?atEnd ?atStop ?atError ?atNode ?inBody ?atLoop stop s
  case atEnd =>
    intro stop s hNext body hBody
    obtain rfl : ⟨[], false⟩ = body := by simpa using hBody
    exact ⟨[], .nil _, fun h => by simp at h, fun _ => (TokenStream.next?_eq_none_iff s).mp hNext⟩
  case atStop =>
    intro stop s t s₁ hNext hStop body hBody
    obtain rfl : ⟨[], true⟩ = body := by simpa using hBody
    exact ⟨[], .nil _, fun _ => ⟨t, hStop, (TokenStream.next?_eq_some_iff.mp hNext).1⟩,
      fun h => by simp at h⟩
  case atError =>
    intro stop s t s₁ e hNext hStop hMeaning body hBody
    simp at hBody
  case atNode =>
    intro stop s t s₁ node hNext hStop hMeaning ih body hBody
    obtain ⟨⟨nodes, closed⟩, hNodes, rfl⟩ := withNode_eq_ok_iff.mp hBody
    obtain ⟨hRest, -, hDepth⟩ := TokenStream.next?_eq_some_iff.mp hNext
    obtain ⟨read, hReads, hClosed, hOpen⟩ := ih _ hNodes
    rw [hDepth] at hMeaning hReads
    refine ⟨t :: read, .node hMeaning (position_of_meaning hMeaning) hReads, fun h => ?_,
      fun h => by rw [hRest, hOpen h]⟩
    obtain ⟨u, hu, hBefore⟩ := hClosed h
    exact ⟨u, hu, by rw [hRest, hBefore]; rfl⟩
  case inBody =>
    intro stop s t s₁ header e s₂ hNext hStop hMeaning hInner body hBody
    simp at hBody
  case atLoop =>
    intro stop s t s₁ header ⟨inner, innerClosed⟩ s₂ hNext hStop hMeaning hParse hInner ih body
      hBody
    obtain ⟨⟨nodes, closed⟩, hNodes, rfl⟩ := withNode_eq_ok_iff.mp hBody
    obtain ⟨hRest, -, hDepth⟩ := TokenStream.next?_eq_some_iff.mp hNext
    obtain ⟨inside, hInside, hInnerClosed, hInnerOpen⟩ := hInner _ rfl
    have hOnward := onward_parseNodes p (some loopEnd) s₁.enterLoop
    rw [hParse] at hOnward
    have hExit : s₂.exitLoop.loopDepth = s.loopDepth := hOnward.exitLoop.depth.trans hDepth
    have hBody : s₁.enterLoop.loopDepth = s.loopDepth + 1 := congrArg (· + 1) hDepth
    rw [hDepth] at hMeaning
    rw [hBody] at hInside
    cases innerClosed with
    | true =>
      obtain ⟨closing, hClosing, hInner⟩ := hInnerClosed rfl
      obtain ⟨read, hReads, hClosed, hOpen⟩ := ih _ hNodes
      rw [hExit] at hReads
      have hTokens : s.rest = t :: inside ++ closing :: s₂.exitLoop.rest := by
        rw [hRest]
        exact congrArg (t :: ·) hInner
      refine ⟨t :: inside ++ closing :: read, .loop hMeaning hInside hClosing hReads, fun h => ?_,
        fun h => by rw [hTokens, hOpen h]⟩
      obtain ⟨u, hu, hBefore⟩ := hClosed h
      exact ⟨u, hu, by rw [hTokens, hBefore]; simp [withNode]⟩
    | false =>
      -- the body has taken all tokens, so nothing stands behind the text that the loop becomes
      have hEnd : s₂.rest = [] := by
        have hEnds := (ends_parseNodes p (some loopEnd) s₁.enterLoop _ (by rw [hParse])).1 rfl
        rwa [hParse] at hEnds
      rw [parseNodes_of_unclosed hParse rfl] at hNodes
      obtain ⟨rfl, rfl⟩ : [] = nodes ∧ false = closed := by simpa using hNodes
      have hText := unclosedText_eq (openingContent t) hNext hOnward.tokens hEnd
      have hNode : loopNode header (openingContent t) t.position s₁ s₂ ⟨inner, false⟩ =
          .text (sourceOf (t :: s₁.rest)) t.position := by
        rw [loopNode, hText, hRest]
        rfl
      rw [hNode]
      exact ⟨t :: s₁.rest, .unclosed hMeaning, fun h => by simp at h, fun _ => hRest⟩

/-- The trees of a template were read from all of its tokens. -/
theorem reads_parse {p : Parser} {tokens : List Token} {nodes : List Node}
    (hParse : p.parse tokens = .ok nodes) : p.Reads 0 tokens nodes := by
  unfold parse at hParse
  cases hBody : (p.parseNodes none (.ofTokens tokens)).1 with
  | error e => simp [hBody, Except.map] at hParse
  | ok body =>
    obtain rfl : body.nodes = nodes := by simpa [hBody, Except.map] using hParse
    obtain ⟨read, hReads, -, hOpen⟩ := p.reads_parseNodes none (.ofTokens tokens) body hBody
    have hAll : tokens = read :=
      hOpen ((p.ends_parseNodes none (.ofTokens tokens) body hBody).2 rfl)
    rwa [← hAll] at hReads

end Parser

-- ---------------------------------------------------------------------------
-- The order of nodes
-- ---------------------------------------------------------------------------

mutual

/-- The node, and behind it all nodes of its body. -/
def Node.preorder : Node → List Node
  | .text content position => [.text content position]
  | .placeholder path position => [.placeholder path position]
  | .inclusion name position => [.inclusion name position]
  | .loop item collection body position => .loop item collection body position :: preorder body
termination_by structural node => node

/-- All nodes of some trees: each before those of its body, and these before its next sibling. -/
def preorder : List Node → List Node
  | [] => []
  | node :: nodes => node.preorder ++ preorder nodes
termination_by structural nodes => nodes

end

/-- A node that a token stands for has no nodes in it. -/
theorem Parser.preorder_of_meaning {p : Parser} {depth : Nat} {t : Token} {node : Node}
    (hMeaning : p.meaning depth t = .ok (.node node)) : node.preorder = [node] := by
  rcases meaning_node_cases hMeaning with ⟨_, rfl⟩ | ⟨_, rfl⟩ | ⟨_, _, -, rfl⟩ <;> rfl

/-- **The places of the nodes are places of tokens, in the order of the tokens**: some are left out,
those of closing tags and of what was dropped, and none comes twice. -/
theorem Parser.Reads.sublist {p : Parser} {depth : Nat} {tokens : List Token} {nodes : List Node}
    (h : p.Reads depth tokens nodes) :
    ((preorder nodes).map Node.position).Sublist (tokens.map Token.position) := by
  induction h with
  | nil depth => exact List.Sublist.refl _
  | node means place behind ih =>
    rw [preorder, preorder_of_meaning means, List.singleton_append, List.map_cons, List.map_cons,
      place]
    exact ih.cons_cons _
  | @loop depth t closing inner ts header body nodes means inside closes behind ihBody ihNodes =>
    have hBehind := ihNodes.cons closing.position
    have hBoth := ihBody.append hBehind
    simp only [preorder, Node.preorder, List.map_cons, List.map_append, List.cons_append]
    exact hBoth.cons_cons _
  | @unclosed depth t ts header means =>
    exact List.singleton_sublist.mpr List.mem_cons_self

/--
**Places are exact.** In every template, a token stands on the line and in the column that the text
in front of it leaves, counted from one: the line by line feeds, the column by the characters behind
the last of them. So places increase strictly from token to token. In every tree that parsing
returns, whatever constructs the parser knows, each node stands where the first of its tokens does,
and places increase strictly from each node to the nodes of its body and from these to its next
sibling.
-/
theorem positions_are_exact (template : String) :
    (∀ before t after, Token.scan template = before ++ t :: after →
      t.position = Position.after (sourceOf before)) ∧
    ((Token.scan template).Pairwise fun t u => t.position < u.position) ∧
    ∀ (p : Parser) nodes, p.parseText template = .ok nodes →
      p.Reads 0 (Token.scan template) nodes ∧
      (preorder nodes).Pairwise fun m n => m.position < n.position := by
  have hPlaced := placed_scan template
  have hCut : WellCut (Token.scan template) := wellCut_locate_pieces template.toList .start
  have hOrder := hPlaced.pairwise_lt hCut.source_ne_nil
  refine ⟨?_, hOrder, ?_⟩
  · intro before t after hScan
    rw [hScan] at hPlaced
    rw [hPlaced.position_eq, Position.advance_start]
  · intro p nodes hParse
    have hReads := Parser.reads_parse hParse
    exact ⟨hReads, List.pairwise_map.mp ((List.pairwise_map.mpr hOrder).sublist hReads.sublist)⟩

set_option maxRecDepth 4000 in
/-- The theorem at a tag over two lines, and a loop that is dropped with the placeholder in it. -/
theorem positions_are_exact_around_dropped_loop :
    let template := "é\x7b\x7bfor x in xs\n\x7d\x7d\x7b\x7bx\x7d\x7d\x7b\x7b/for\x7d\x7d" ++
      "\x7b\x7bfor y in ys\x7d\x7d\x7b\x7by\x7d\x7d"
    let nodes : List Node := [.text "é" ⟨1, 1⟩, .loop "x" "xs" [.placeholder "x" ⟨2, 3⟩] ⟨1, 2⟩,
      .text "\x7b\x7bfor y in ys\x7d\x7d\x7b\x7by\x7d\x7d" ⟨2, 16⟩]
    ({} : Parser).parseText template = .ok nodes ∧
    ({} : Parser).Reads 0 (Token.scan template) nodes ∧
    (preorder nodes).Pairwise fun m n => m.position < n.position := by
  intro template nodes
  have hParse : ({} : Parser).parseText template = .ok nodes := by
    unfold template nodes
    cbv
  exact ⟨hParse, (positions_are_exact template).2.2 {} nodes hParse⟩

end Stencil
