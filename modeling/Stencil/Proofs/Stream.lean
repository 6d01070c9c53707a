import Stencil.Parser
import Stencil.Proofs.Names

/-!
# Stencil — streams through parsing

Parsing is a recursion over one stream that everybody shares: a loop reads its body from the stream
of the nodes around it. This module says what each token means by itself, restates the recursion in
these terms, and collects what a stream keeps through it.

* `Parser.meaning` — what a token stands for where so many loops are open: a node, the opening of a
  loop, or an error.
* `parseNodes_meaning` — the recursion, one token at a time, in terms of meanings.
* `meaning_node_cases`, `meaning_loop_cases`, `meaning_eq_error` — what a node that a token stands
  for can be, when a token opens a loop, and what is wrong with a tag that is refused.
* `parseNodes_induction` — induction along the recursion.
* `forest_of_parse` — what the constructs of a tree keep holds of every tree that parsing returns.
* `TokenStream.Onward` — a stream read on: the same tokens, no more of them to come, as many loops
  around it. Parsing only ever reads on (`onward_parseNodes`), whether it succeeds or not.
* `unclosedText_eq` — the text of a loop that is never closed is all that was left of the stream
  when its tag came up.
-/

namespace Stencil

/-! ## What a token means -/

/-- What a token stands for. -/
inductive Meaning where
  | node (node : Node)
  | loop (header : LoopHeader)

/-- The token is a tag with exactly this content. -/
def Token.isTag (content : String) : Token → Bool
  | .text ..   => false
  | .tag c _ _ => c == content

namespace Parser

/-- What a token stands for where `depth` loops are open, unless it closes one. -/
def meaning (p : Parser) (depth : Nat) : Token → Except Error Meaning
  | .text content position => .ok (.node (.text content position))
  | .tag content _ position =>
    match p.constructs.find? (·.claims content) with
    | none              => .ok (.node (.text (tagSource content) position))
    | some .placeholder => .ok (.node (.placeholder content position))
    | some .inclusion   => (includeTarget content).map fun name => .node (.inclusion name position)
    | some .loop        => (p.openLoop content position depth).map .loop

/-- A node that a token stands for is no loop, and the name of an include has been checked. -/
theorem meaning_node_cases {p : Parser} {depth : Nat} {t : Token} {node : Node}
    (hMeaning : p.meaning depth t = .ok (.node node)) :
    (∃ content, node = .text content t.position) ∨
    (∃ path, node = .placeholder path t.position) ∨
    (∃ content name, includeTarget content = .ok name ∧ node = .inclusion name t.position) := by
  cases t with
  | text content position =>
    cases hMeaning
    exact .inl ⟨content, rfl⟩
  | tag content raw position =>
    simp only [meaning] at hMeaning
    split at hMeaning
    · cases hMeaning
      exact .inl ⟨tagSource content, rfl⟩
    · cases hMeaning
      exact .inr (.inl ⟨content, rfl⟩)
    · cases hTarget : includeTarget content with
      | error e => simp [hTarget, Except.map] at hMeaning
      | ok name =>
        simp only [hTarget, Except.map, Except.ok.injEq, Meaning.node.injEq] at hMeaning
        exact .inr (.inr ⟨content, name, hTarget, hMeaning.symm⟩)
    · cases hOpen : p.openLoop content position depth <;> simp [hOpen, Except.map] at hMeaning

/-- A loop opens only where there is room for one more. -/
theorem meaning_loop_cases {p : Parser} {depth : Nat} {t : Token} {header : LoopHeader}
    (hMeaning : p.meaning depth t = .ok (.loop header)) : depth < p.maxLoopNesting := by
  cases t with
  | text content position => cases hMeaning
  | tag content raw position =>
    simp only [meaning] at hMeaning
    split at hMeaning
    · cases hMeaning
    · cases hMeaning
    · cases hTarget : includeTarget content <;> simp [hTarget, Except.map] at hMeaning
    · refine Decidable.byContradiction fun hFull => ?_
      have hDeep : p.maxLoopNesting ≤ depth := Nat.not_lt.mp hFull
      simp only [openLoop, if_pos hDeep] at hMeaning
      split at hMeaning <;> cases hMeaning

/-- Only a tag is refused: for the name that it asks for, or for bad grammar, which is reported
where the tag stands. -/
theorem meaning_eq_error {p : Parser} {depth : Nat} {t : Token} {e : Error}
    (hMeaning : p.meaning depth t = .error e) :
    ∃ content raw position, t = .tag content raw position ∧
      ((∃ reason, e = .validation reason) ∨ ∃ fault, e = .grammar position fault) := by
  cases t with
  | text content position => cases hMeaning
  | tag content raw position =>
    refine ⟨content, raw, position, rfl, ?_⟩
    simp only [meaning] at hMeaning
    split at hMeaning
    · cases hMeaning
    · cases hMeaning
    · -- the name of an include is refused
      unfold includeTarget at hMeaning
      split at hMeaning
      · dsimp only at hMeaning
        split at hMeaning
        · cases hMeaning
        · next hCheck =>
          obtain ⟨reason, rfl⟩ := TemplateName.check_eq_error hCheck
          cases hMeaning
          exact .inl ⟨reason, rfl⟩
      · cases hMeaning
        exact .inl ⟨_, rfl⟩
    · -- a loop is malformed, or one too many is open
      unfold openLoop at hMeaning
      split at hMeaning
      · cases hMeaning
        exact .inr ⟨_, rfl⟩
      · split at hMeaning
        · cases hMeaning
          exact .inr ⟨_, rfl⟩
        · cases hMeaning

/-- The content of the opening tag of a loop, as far as its text needs it. -/
def openingContent : Token → String
  | .text content _  => content
  | .tag content _ _ => content

/-- One token at a time: the stop tag ends the body, and any other token is the node that it stands
for, or a loop around a body that is read from the same stream. -/
theorem parseNodes_meaning (p : Parser) (stop : Option String) (s : TokenStream) :
    p.parseNodes stop s =
      match s.next? with
      | none => (.ok ⟨[], false⟩, s)
      | some (t, s₁) =>
        if stop.any t.isTag then (.ok ⟨[], true⟩, s₁)
        else
          match p.meaning s₁.loopDepth t with
          | .error e => (.error e, s₁)
          | .ok (.node node) => withNode node (p.parseNodes stop s₁)
          | .ok (.loop header) =>
            match p.parseNodes (some loopEnd) s₁.enterLoop with
            | (.error e, s₂) => (.error e, s₂.exitLoop)
            | (.ok body, s₂) =>
              withNode (loopNode header (openingContent t) t.position s₁ s₂ body)
                (p.parseNodes stop s₂.exitLoop) := by
  rw [parseNodes_eq]
  cases s.next? with
  | none => rfl
  | some next =>
    obtain ⟨t, s₁⟩ := next
    cases t with
    | text content position => cases stop <;> rfl
    | tag content raw position =>
      by_cases hStop : stop = some content
      · have hAny : stop.any (Token.tag content raw position).isTag = true := by
          rw [hStop]
          exact beq_self_eq_true content
        simp only [hAny, if_true, if_pos hStop]
      · have hAny : stop.any (Token.tag content raw position).isTag = false := by
          cases stop with
          | none => rfl
          | some word => exact beq_eq_false_iff_ne.mpr fun h => hStop (congrArg some h.symm)
        simp only [hAny, if_neg hStop, meaning, Bool.false_eq_true, if_false]
        cases p.constructs.find? (·.claims content) with
        | none => rfl
        | some construct =>
          cases construct with
          | placeholder => rfl
          | inclusion =>
            simp only [parseTag]
            cases includeTarget content <;> rfl
          | loop =>
            simp only [parseTag, parseUntil]
            cases p.openLoop content position s₁.loopDepth with
            | error e => rfl
            | ok header =>
              simp only [Except.map]
              obtain ⟨_ | _, s₂⟩ := p.parseNodes (some loopEnd) s₁.enterLoop <;> rfl

end Parser

/-! ## Streams read on -/

/-- `s'` is `s`, read on: it has the same tokens, no more of them to come, and stands inside as many
loops. -/
structure TokenStream.Onward (s s' : TokenStream) : Prop where
  tokens : s'.tokens = s.tokens
  rest   : s'.rest.length ≤ s.rest.length
  depth  : s'.loopDepth = s.loopDepth

namespace TokenStream

theorem Onward.refl (s : TokenStream) : s.Onward s := ⟨rfl, Nat.le_refl _, rfl⟩

theorem Onward.trans {s₁ s₂ s₃ : TokenStream} (h₁ : s₁.Onward s₂) (h₂ : s₂.Onward s₃) :
    s₁.Onward s₃ :=
  ⟨h₂.tokens.trans h₁.tokens, Nat.le_trans h₂.rest h₁.rest, h₂.depth.trans h₁.depth⟩

/-- A token that is read moves over, and nothing else changes. -/
theorem next?_eq_some_iff {s s₁ : TokenStream} {t : Token} :
    s.next? = some (t, s₁) ↔
      s.rest = t :: s₁.rest ∧ s₁.consumed = t :: s.consumed ∧ s₁.loopDepth = s.loopDepth := by
  obtain ⟨consumed, rest, depth⟩ := s
  obtain ⟨consumed₁, rest₁, depth₁⟩ := s₁
  cases rest with
  | nil => simp [next?]
  | cons t' ts =>
    simp only [next?, Option.some.injEq, Prod.mk.injEq, TokenStream.mk.injEq, List.cons.injEq]
    constructor
    · rintro ⟨rfl, rfl, rfl, rfl⟩
      exact ⟨⟨rfl, rfl⟩, rfl, rfl⟩
    · rintro ⟨⟨rfl, rfl⟩, rfl, rfl⟩
      exact ⟨rfl, rfl, rfl, rfl⟩

theorem onward_next? {s s₁ : TokenStream} {t : Token} (hNext : s.next? = some (t, s₁)) :
    s.Onward s₁ := by
  have hRest := length_rest_of_next? hNext
  exact ⟨tokens_of_next? hNext, by omega, (next?_eq_some_iff.mp hNext).2.2⟩

/-- The body of a loop is read one level further in, and the stream comes back out of it. -/
theorem Onward.exitLoop {s s' : TokenStream} (h : s.enterLoop.Onward s') :
    s.Onward s'.exitLoop := by
  refine ⟨h.tokens, h.rest, ?_⟩
  have hDepth : s'.loopDepth = s.loopDepth + 1 := h.depth
  show s'.loopDepth - 1 = s.loopDepth
  omega

end TokenStream

namespace Parser

/--
**Induction over a parse.** What is read from a stream is decided by its first token: the end or the
stop tag ends it at once, an error does too, a node comes in front of what the rest gives, and a
loop reads a body one level further in and then the rest, which is what the body left.
-/
theorem parseNodes_induction {p : Parser}
    {P : Option String → TokenStream → Except Error Body × TokenStream → Prop}
    (atEnd : ∀ stop s, s.next? = none → P stop s (.ok ⟨[], false⟩, s))
    (atStop : ∀ stop s t s₁, s.next? = some (t, s₁) → stop.any t.isTag = true →
      P stop s (.ok ⟨[], true⟩, s₁))
    (atError : ∀ stop s t s₁ e, s.next? = some (t, s₁) → ¬ stop.any t.isTag = true →
      p.meaning s₁.loopDepth t = .error e → P stop s (.error e, s₁))
    (atNode : ∀ stop s t s₁ node, s.next? = some (t, s₁) → ¬ stop.any t.isTag = true →
      p.meaning s₁.loopDepth t = .ok (.node node) → P stop s₁ (p.parseNodes stop s₁) →
      P stop s (withNode node (p.parseNodes stop s₁)))
    (inBody : ∀ stop s t s₁ header e s₂, s.next? = some (t, s₁) → ¬ stop.any t.isTag = true →
      p.meaning s₁.loopDepth t = .ok (.loop header) →
      P (some loopEnd) s₁.enterLoop (.error e, s₂) → P stop s (.error e, s₂.exitLoop))
    (atLoop : ∀ stop s t s₁ header body s₂, s.next? = some (t, s₁) → ¬ stop.any t.isTag = true →
      p.meaning s₁.loopDepth t = .ok (.loop header) →
      p.parseNodes (some loopEnd) s₁.enterLoop = (.ok body, s₂) →
      P (some loopEnd) s₁.enterLoop (.ok body, s₂) →
      P stop s₂.exitLoop (p.parseNodes stop s₂.exitLoop) →
      P stop s (withNode (loopNode header (openingContent t) t.position s₁ s₂ body)
        (p.parseNodes stop s₂.exitLoop)))
    (stop : Option String) (s : TokenStream) : P stop s (p.parseNodes stop s) := by
  -- on the number of tokens left: a body leaves fewer of them than its opening tag found
  induction hLength : s.rest.length using Nat.strongRecOn generalizing stop s with
  | ind n ih =>
    rw [parseNodes_meaning]
    cases hNext : s.next? with
    | none => exact atEnd stop s hNext
    | some next =>
      obtain ⟨t, s₁⟩ := next
      have hShorter := TokenStream.length_rest_of_next? hNext
      dsimp only
      by_cases hStop : stop.any t.isTag = true
      · rw [if_pos hStop]
        exact atStop stop s t s₁ hNext hStop
      · rw [if_neg hStop]
        cases hMeaning : p.meaning s₁.loopDepth t with
        | error e => exact atError stop s t s₁ e hNext hStop hMeaning
        | ok meaning =>
          cases meaning with
          | node node =>
            exact atNode stop s t s₁ node hNext hStop hMeaning (ih _ (by omega) stop s₁ rfl)
          | loop header =>
            have hBody := ih _ (by simp; omega) (some loopEnd) s₁.enterLoop rfl
            have hForward := (p.readNodes (some loopEnd) s₁.enterLoop).forward
            dsimp only
            split
            · next e s₂ hParse =>
              rw [hParse] at hBody
              exact inBody stop s t s₁ header e s₂ hNext hStop hMeaning hBody
            · next body s₂ hParse =>
              rw [hParse] at hBody
              have hLeft : s₂.rest.length ≤ s₁.rest.length := by
                rw [show s₂ = (p.readNodes (some loopEnd) s₁.enterLoop).stream from
                  (congrArg Prod.snd hParse).symm]
                exact hForward
              exact atLoop stop s t s₁ header body s₂ hNext hStop hMeaning hParse hBody
                (ih _ (by simp; omega) stop s₂.exitLoop rfl)

/-- **Parsing reads on**, whether it succeeds or fails. -/
theorem onward_parseNodes (p : Parser) (stop : Option String) (s : TokenStream) :
    s.Onward (p.parseNodes stop s).2 := by
  refine parseNodes_induction (P := fun _ s r => s.Onward r.2)
    ?atEnd ?atStop ?atError ?atNode ?inBody ?atLoop stop s
  case atEnd =>
    intro stop s hNext
    exact .refl s
  case atStop =>
    intro stop s t s₁ hNext hStop
    exact TokenStream.onward_next? hNext
  case atError =>
    intro stop s t s₁ e hNext hStop hMeaning
    exact TokenStream.onward_next? hNext
  case atNode =>
    intro stop s t s₁ node hNext hStop hMeaning ih
    exact (TokenStream.onward_next? hNext).trans ih
  case inBody =>
    intro stop s t s₁ header e s₂ hNext hStop hMeaning hBody
    exact (TokenStream.onward_next? hNext).trans hBody.exitLoop
  case atLoop =>
    intro stop s t s₁ header body s₂ hNext hStop hMeaning hParse hBody ih
    exact (TokenStream.onward_next? hNext).trans (hBody.exitLoop.trans ih)

/-- A body with a node in front is closed when the body is. -/
theorem withNode_eq_ok_iff {node : Node} {r : Except Error Body × TokenStream} {body : Body} :
    (withNode node r).1 = .ok body ↔
      ∃ rest, r.1 = .ok rest ∧ body = ⟨node :: rest.nodes, rest.closed⟩ := by
  obtain ⟨_ | rest, s⟩ := r <;> simp [withNode, Except.map, eq_comm]

/-- A body ends at the stop tag or at the end of the tokens; without a stop tag, at the end. -/
theorem ends_parseNodes (p : Parser) (stop : Option String) (s : TokenStream) :
    ∀ body, (p.parseNodes stop s).1 = .ok body →
      (body.closed = false → (p.parseNodes stop s).2.rest = []) ∧
      (stop = none → body.closed = false) := by
  refine parseNodes_induction (P := fun stop _ r => ∀ body, r.1 = .ok body →
    (body.closed = false → r.2.rest = []) ∧ (stop = none → body.closed = false))
    ?atEnd ?atStop ?atError ?atNode ?inBody ?atLoop stop s
  case atEnd =>
    intro stop s hNext body hBody
    obtain rfl : ⟨[], false⟩ = body := by simpa using hBody
    exact ⟨fun _ => (TokenStream.next?_eq_none_iff s).mp hNext, fun _ => rfl⟩
  case atStop =>
    intro stop s t s₁ hNext hStop body hBody
    -- only a body that waits for a stop tag ends at one
    obtain rfl : ⟨[], true⟩ = body := by simpa using hBody
    refine ⟨fun h => by simp at h, ?_⟩
    rintro rfl
    simp at hStop
  case atError =>
    intro stop s t s₁ e hNext hStop hMeaning body hBody
    simp at hBody
  case atNode =>
    intro stop s t s₁ node hNext hStop hMeaning ih body hBody
    obtain ⟨rest, hRest, rfl⟩ := withNode_eq_ok_iff.mp hBody
    exact ih rest hRest
  case inBody =>
    intro stop s t s₁ header e s₂ hNext hStop hMeaning hInner body hBody
    simp at hBody
  case atLoop =>
    intro stop s t s₁ header inner s₂ hNext hStop hMeaning hParse hInner ih body hBody
    obtain ⟨rest, hRest, rfl⟩ := withNode_eq_ok_iff.mp hBody
    exact ih rest hRest

/-- **The text of a loop that is never closed** is that of all tokens from its opening tag on. -/
theorem unclosedText_eq {s s₁ s₂ : TokenStream} {t : Token} (content : String)
    (hNext : s.next? = some (t, s₁)) (hTokens : s₂.tokens = s₁.tokens) (hEnd : s₂.rest = []) :
    unclosedText content s₁ s₂ = sourceOf s.rest := by
  obtain ⟨-, hConsumed, -⟩ := TokenStream.next?_eq_some_iff.mp hNext
  -- when the body starts, the opening tag is the last token that was read
  have hOffset : s₁.offset = s.consumed.length + 1 := by simp [TokenStream.offset, hConsumed]
  have hRead : s₂.consumed.reverse = s.consumed.reverse ++ s.rest := by
    have hAll := hTokens.trans (TokenStream.tokens_of_next? hNext)
    simpa [TokenStream.tokens, hEnd] using hAll
  simp [unclosedText, hOffset, TokenStream.sourceSince, hRead]

/--
**What every tree has that parsing returns**, where `depth` loops are open around it: what holds of
no trees, is kept by one more node that a token stands for, by one more text, and by one more loop
around trees that have it one level further in.
-/
theorem forest_of_parseNodes {p : Parser} {P : Nat → List Node → Prop}
    (nil : ∀ depth, P depth [])
    (text : ∀ depth content position nodes, P depth nodes →
      P depth (.text content position :: nodes))
    (node : ∀ depth t node nodes, p.meaning depth t = .ok (.node node) → P depth nodes →
      P depth (node :: nodes))
    (loop : ∀ depth t header body nodes, p.meaning depth t = .ok (.loop header) →
      P (depth + 1) body → P depth nodes →
      P depth (.loop header.item header.collection body t.position :: nodes))
    (stop : Option String) (s : TokenStream) :
    ∀ body, (p.parseNodes stop s).1 = .ok body → P s.loopDepth body.nodes := by
  refine parseNodes_induction (P := fun _ s r => ∀ body, r.1 = .ok body →
    P s.loopDepth body.nodes) ?atEnd ?atStop ?atError ?atNode ?inBody ?atLoop stop s
  case atEnd =>
    intro stop s hNext body hBody
    obtain rfl : ⟨[], false⟩ = body := by simpa using hBody
    exact nil s.loopDepth
  case atStop =>
    intro stop s t s₁ hNext hStop body hBody
    obtain rfl : ⟨[], true⟩ = body := by simpa using hBody
    exact nil s.loopDepth
  case atError =>
    intro stop s t s₁ e hNext hStop hMeaning body hBody
    simp at hBody
  case atNode =>
    intro stop s t s₁ n hNext hStop hMeaning ih body hBody
    obtain ⟨rest, hRest, rfl⟩ := withNode_eq_ok_iff.mp hBody
    have hDepth : s₁.loopDepth = s.loopDepth := (TokenStream.onward_next? hNext).depth
    rw [hDepth] at hMeaning ih
    exact node _ t n rest.nodes hMeaning (ih rest hRest)
  case inBody =>
    intro stop s t s₁ header e s₂ hNext hStop hMeaning hInner body hBody
    simp at hBody
  case atLoop =>
    intro stop s t s₁ header inner s₂ hNext hStop hMeaning hParse hInner ih body hBody
    obtain ⟨rest, hRest, rfl⟩ := withNode_eq_ok_iff.mp hBody
    have hDepth : s₁.loopDepth = s.loopDepth := (TokenStream.onward_next? hNext).depth
    have hOnward := onward_parseNodes p (some loopEnd) s₁.enterLoop
    rw [hParse] at hOnward
    have hExit : s₂.exitLoop.loopDepth = s.loopDepth := hOnward.exitLoop.depth.trans hDepth
    have hRestHolds : P s.loopDepth rest.nodes := hExit ▸ ih rest hRest
    have hInnerHolds : P (s.loopDepth + 1) inner.nodes := hDepth ▸ hInner inner rfl
    rw [hDepth] at hMeaning
    -- a body that is not closed is kept as text, and its nodes are gone
    cases hClosed : inner.closed with
    | true =>
      have hNode : loopNode header (openingContent t) t.position s₁ s₂ inner =
          .loop header.item header.collection inner.nodes t.position := by
        rw [loopNode, if_pos hClosed]
      rw [hNode]
      exact loop _ t header inner.nodes rest.nodes hMeaning hInnerHolds hRestHolds
    | false =>
      have hNode : loopNode header (openingContent t) t.position s₁ s₂ inner =
          .text (unclosedText (openingContent t) s₁ s₂) t.position := by
        rw [loopNode, if_neg (by simp [hClosed])]
      simpa only [hNode] using text _ _ t.position rest.nodes hRestHolds

/-- What every tree has that parsing returns, for a whole template. -/
theorem forest_of_parse {p : Parser} {P : Nat → List Node → Prop}
    (nil : ∀ depth, P depth [])
    (text : ∀ depth content position nodes, P depth nodes →
      P depth (.text content position :: nodes))
    (node : ∀ depth t node nodes, p.meaning depth t = .ok (.node node) → P depth nodes →
      P depth (node :: nodes))
    (loop : ∀ depth t header body nodes, p.meaning depth t = .ok (.loop header) →
      P (depth + 1) body → P depth nodes →
      P depth (.loop header.item header.collection body t.position :: nodes))
    {tokens : List Token} {nodes : List Node} (hParse : p.parse tokens = .ok nodes) :
    P 0 nodes := by
  unfold parse at hParse
  cases hBody : (p.parseNodes none (.ofTokens tokens)).1 with
  | error e => simp [hBody, Except.map] at hParse
  | ok body =>
    obtain rfl : body.nodes = nodes := by simpa [hBody, Except.map] using hParse
    exact forest_of_parseNodes nil text node loop none (.ofTokens tokens) body hBody

end Parser

end Stencil
