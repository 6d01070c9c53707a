import Stencil.Proofs.Places
import Stencil.Proofs.Stream

/-!
# Stencil — a stream in many hands

Whoever holds a stream may read a token from it, look at the next one, have the nodes up to a stop
tag parsed, or have a construct build a node from a tag of the caller's own. Every call leaves
behind a stream for the next one, the calls that fail included, so nothing may be lost or left open
on the way out of a failure.

What a parse did with a stream can be told from where the stream ends up. The last token read is the
stop tag where the body is closed, and the tag that is to blame where parsing fails: up to that tag
nothing is wrong, and with it everything is, whatever comes after.

* `TokenStream.withRest`  — a stream with other tokens to come.
* `parseNodes_of_closed`  — a closed body is read no further than its stop tag.
* `Parser.Offends`        — a tag is what a parse fails at.
* `offends_parseNodes`    — a parse that fails has read up to the tag it fails at.
* `StreamCall`            — the calls that move a stream.
* `stream_survives_calls` — what any number of calls leave behind.
-/

namespace Stencil

-- ---------------------------------------------------------------------------
-- Streams with other tokens to come
-- ---------------------------------------------------------------------------

namespace TokenStream

/-- The stream, with other tokens to come. -/
def withRest (s : TokenStream) (rest : List Token) : TokenStream := { s with rest := rest }

theorem next?_withRest {s s₁ : TokenStream} {t : Token} (hNext : s.next? = some (t, s₁))
    (tail : List Token) : (s.withRest (t :: tail)).next? = some (t, s₁.withRest tail) := by
  obtain ⟨-, hConsumed, hDepth⟩ := next?_eq_some_iff.mp hNext
  exact next?_eq_some_iff.mpr ⟨rfl, hConsumed, hDepth⟩

/-- The tokens that were read on the way are the ones that were to come. -/
theorem Onward.consumed_eq {s s' : TokenStream} (h : s.Onward s') {before : List Token} {t : Token}
    (hRest : s.rest = before ++ t :: s'.rest) :
    s'.consumed = t :: (before.reverse ++ s.consumed) := by
  have hTokens : s'.consumed.reverse ++ s'.rest =
      (s.consumed.reverse ++ (before ++ [t])) ++ s'.rest := by
    have hAll : s'.consumed.reverse ++ s'.rest = s.consumed.reverse ++ s.rest := h.tokens
    rw [hAll, hRest]
    simp
  have hRead := congrArg List.reverse (List.append_cancel_right hTokens)
  simpa using hRead

/-- A stream that is read on has read at least as many tokens. -/
theorem Onward.offset_le {s s' : TokenStream} (h : s.Onward s') : s.offset ≤ s'.offset := by
  have hLength := congrArg List.length h.tokens
  have hRest := h.rest
  simp only [TokenStream.tokens, List.length_append, List.length_reverse] at hLength
  show s.consumed.length ≤ s'.consumed.length
  omega

theorem offset_le_length_tokens (s : TokenStream) : s.offset ≤ s.tokens.length := by
  show s.consumed.length ≤ (s.consumed.reverse ++ s.rest).length
  simp

/-- What has been read and what is to come are the text of all tokens. -/
theorem sourceSince_append_rest (s : TokenStream) :
    s.sourceSince 0 ++ sourceOf s.rest = sourceOf s.tokens := by
  rw [sourceSince, List.drop_zero, tokens, sourceOf_append]

/-- The last token that was read stands just before the offset. -/
theorem getElem?_tokens_of_consumed {s : TokenStream} {t : Token} {before : List Token}
    (hConsumed : s.consumed = t :: before) : s.tokens[s.offset - 1]? = some t := by
  have hOffset : s.offset - 1 = before.reverse.length := by simp [offset, hConsumed]
  rw [hOffset, tokens, hConsumed, List.reverse_cons, List.append_assoc, List.getElem?_append_right
    (Nat.le_refl _), Nat.sub_self]
  rfl

end TokenStream

namespace Parser

variable {p : Parser} {stop : Option String} {s s₁ s₂ : TokenStream} {t : Token} {e : Error}

-- ---------------------------------------------------------------------------
-- One token at a time, again
-- ---------------------------------------------------------------------------

theorem parseNodes_atEnd (hRest : s.rest = []) : p.parseNodes stop s = (.ok ⟨[], false⟩, s) := by
  rw [parseNodes_meaning, (TokenStream.next?_eq_none_iff s).mpr hRest]

theorem parseNodes_atStop (hNext : s.next? = some (t, s₁)) (hStop : stop.any t.isTag = true) :
    p.parseNodes stop s = (.ok ⟨[], true⟩, s₁) := by
  rw [parseNodes_meaning, hNext]
  exact if_pos hStop

theorem parseNodes_atError (hNext : s.next? = some (t, s₁)) (hStop : ¬ stop.any t.isTag = true)
    (hMeaning : p.meaning s₁.loopDepth t = .error e) :
    p.parseNodes stop s = (.error e, s₁) := by
  rw [parseNodes_meaning, hNext]
  simp only [if_neg hStop, hMeaning]

theorem parseNodes_atNode {node : Node} (hNext : s.next? = some (t, s₁))
    (hStop : ¬ stop.any t.isTag = true) (hMeaning : p.meaning s₁.loopDepth t = .ok (.node node)) :
    p.parseNodes stop s = withNode node (p.parseNodes stop s₁) := by
  rw [parseNodes_meaning, hNext]
  simp only [if_neg hStop, hMeaning]

theorem parseNodes_inBody {header : LoopHeader} (hNext : s.next? = some (t, s₁))
    (hStop : ¬ stop.any t.isTag = true) (hMeaning : p.meaning s₁.loopDepth t = .ok (.loop header))
    (hBody : p.parseNodes (some loopEnd) s₁.enterLoop = (.error e, s₂)) :
    p.parseNodes stop s = (.error e, s₂.exitLoop) := by
  rw [parseNodes_meaning, hNext]
  simp only [if_neg hStop, hMeaning, hBody]

theorem parseNodes_atLoop {header : LoopHeader} {body : Body} (hNext : s.next? = some (t, s₁))
    (hStop : ¬ stop.any t.isTag = true) (hMeaning : p.meaning s₁.loopDepth t = .ok (.loop header))
    (hBody : p.parseNodes (some loopEnd) s₁.enterLoop = (.ok body, s₂)) :
    p.parseNodes stop s =
      withNode (loopNode header (openingContent t) t.position s₁ s₂ body)
        (p.parseNodes stop s₂.exitLoop) := by
  rw [parseNodes_meaning, hNext]
  simp only [if_neg hStop, hMeaning, hBody]

theorem withNode_eq_error_iff {node : Node} {r : Except Error Body × TokenStream} :
    (withNode node r).1 = .error e ↔ r.1 = .error e := by
  obtain ⟨_ | body, s⟩ := r <;> simp [withNode, Except.map]

/-- Where a body is not closed, no token is left for the nodes behind its loop. -/
theorem parseNodes_of_unclosed {body : Body} {inner : Option String}
    (hBody : p.parseNodes inner s = (.ok body, s₂)) (hClosed : body.closed = false) :
    p.parseNodes stop s₂.exitLoop = (.ok ⟨[], false⟩, s₂.exitLoop) := by
  have hEnds := (p.ends_parseNodes inner s body (congrArg Prod.fst hBody)).1 hClosed
  rw [hBody] at hEnds
  exact parseNodes_atEnd hEnds

-- ---------------------------------------------------------------------------
-- Closed bodies
-- ---------------------------------------------------------------------------

/--
**A closed body ends at its stop tag.** The tag is the last token that is read, and the same nodes
are read whatever comes behind it.
-/
theorem parseNodes_of_closed (p : Parser) (stop : Option String) (s : TokenStream) :
    ∀ nodes, (p.parseNodes stop s).1 = .ok ⟨nodes, true⟩ →
      ∃ read t, stop.any t.isTag = true ∧
        s.rest = read ++ t :: (p.parseNodes stop s).2.rest ∧
        ∀ tail, p.parseNodes stop (s.withRest (read ++ t :: tail)) =
          (.ok ⟨nodes, true⟩, (p.parseNodes stop s).2.withRest tail) := by
  refine parseNodes_induction (P := fun stop s r => ∀ nodes, r.1 = .ok ⟨nodes, true⟩ →
    ∃ read t, stop.any t.isTag = true ∧ s.rest = read ++ t :: r.2.rest ∧
      ∀ tail, p.parseNodes stop (s.withRest (read ++ t :: tail)) =
        (.ok ⟨nodes, true⟩, r.2.withRest tail))
    ?atEnd ?atStop ?atError ?atNode ?inBody ?atLoop stop s
  case atEnd =>
    intro stop s hNext nodes hClosed
    simp at hClosed
  case atStop =>
    intro stop s t s₁ hNext hStop nodes hClosed
    obtain rfl : [] = nodes := by simpa using hClosed
    refine ⟨[], t, hStop, (TokenStream.next?_eq_some_iff.mp hNext).1, fun tail => ?_⟩
    exact parseNodes_atStop (TokenStream.next?_withRest hNext tail) hStop
  case atError =>
    intro stop s t s₁ e hNext hStop hMeaning nodes hClosed
    simp at hClosed
  case atNode =>
    intro stop s t s₁ node hNext hStop hMeaning ih nodes hClosed
    obtain ⟨⟨rest, closed⟩, hRest, hBody⟩ := withNode_eq_ok_iff.mp hClosed
    obtain ⟨rfl, rfl⟩ : nodes = node :: rest ∧ true = closed := by simpa using hBody
    obtain ⟨read, u, hu, hRead, hTail⟩ := ih rest hRest
    refine ⟨t :: read, u, hu, ?_, fun tail => ?_⟩
    · rw [(TokenStream.next?_eq_some_iff.mp hNext).1, hRead]
      rfl
    · rw [List.cons_append, parseNodes_atNode (TokenStream.next?_withRest hNext (read ++ u :: tail))
        hStop hMeaning, hTail]
      rfl
  case inBody =>
    intro stop s t s₁ header e s₂ hNext hStop hMeaning hInner nodes hClosed
    simp at hClosed
  case atLoop =>
    intro stop s t s₁ header ⟨inner, innerClosed⟩ s₂ hNext hStop hMeaning hParse hInner ih nodes
      hClosed
    obtain ⟨⟨rest, closed⟩, hRest, hBody⟩ := withNode_eq_ok_iff.mp hClosed
    obtain ⟨rfl, rfl⟩ : nodes = _ :: rest ∧ true = closed := by simpa using hBody
    -- an open body would have left nothing to close this one with
    cases innerClosed with
    | false =>
      rw [parseNodes_of_unclosed hParse rfl] at hRest
      simp at hRest
    | true =>
      obtain ⟨body, v, hv, hBodyRead, hBodyTail⟩ := hInner inner rfl
      obtain ⟨read, u, hu, hRead, hTail⟩ := ih rest hRest
      refine ⟨t :: body ++ v :: read, u, hu, ?_, fun tail => ?_⟩
      · have hAfter : s₁.rest = body ++ v :: s₂.rest := hBodyRead
        have hBehind : s₂.rest = read ++ u :: (p.parseNodes stop s₂.exitLoop).2.rest := hRead
        rw [(TokenStream.next?_eq_some_iff.mp hNext).1, hAfter, hBehind]
        simp [withNode]
      · have hAgain := hBodyTail (read ++ u :: tail)
        rw [List.cons_append, List.cons_append, List.append_assoc, List.cons_append,
          parseNodes_atLoop (TokenStream.next?_withRest hNext (body ++ v :: (read ++ u :: tail)))
            hStop hMeaning hAgain]
        show withNode _ (p.parseNodes stop (s₂.exitLoop.withRest (read ++ u :: tail))) = _
        rw [hTail]
        rfl

-- ---------------------------------------------------------------------------
-- The tag to blame
-- ---------------------------------------------------------------------------

/--
The tag `t`, behind the tokens `before` of the stream `s`, is what parsing up to `stop` fails at: by
itself it stands for the error, nothing before it is wrong, and nothing behind it can help.
-/
structure Offends (p : Parser) (stop : Option String) (s : TokenStream) (before : List Token)
    (t : Token) (e : Error) : Prop where
  means    : ∃ opened, p.meaning (s.loopDepth + opened) t = .error e
  readable : ∃ nodes, (p.parseNodes stop (s.withRest before)).1 = .ok ⟨nodes, false⟩
  refused  : ∀ after, (p.parseNodes stop (s.withRest (before ++ t :: after))).1 = .error e

/--
**A parse that fails has read up to the tag it fails at**, which it has read too.
-/
theorem offends_parseNodes (p : Parser) (stop : Option String) (s : TokenStream) :
    ∀ e, (p.parseNodes stop s).1 = .error e →
      ∃ before t, s.rest = before ++ t :: (p.parseNodes stop s).2.rest ∧
        p.Offends stop s before t e := by
  refine parseNodes_induction (P := fun stop s r => ∀ e, r.1 = .error e →
    ∃ before t, s.rest = before ++ t :: r.2.rest ∧ p.Offends stop s before t e)
    ?atEnd ?atStop ?atError ?atNode ?inBody ?atLoop stop s
  case atEnd =>
    intro stop s hNext e hError
    simp at hError
  case atStop =>
    intro stop s t s₁ hNext hStop e hError
    simp at hError
  case atError =>
    intro stop s t s₁ e hNext hStop hMeaning e' hError
    obtain rfl : e = e' := by simpa using hError
    obtain ⟨hRest, -, hDepth⟩ := TokenStream.next?_eq_some_iff.mp hNext
    refine ⟨[], t, hRest, ⟨0, hDepth ▸ hMeaning⟩, ⟨[], ?_⟩, fun after => ?_⟩
    · rw [parseNodes_atEnd rfl]
    · rw [List.nil_append,
        parseNodes_atError (TokenStream.next?_withRest hNext after) hStop hMeaning]
  case atNode =>
    intro stop s t s₁ node hNext hStop hMeaning ih e hError
    obtain ⟨hRest, -, hDepth⟩ := TokenStream.next?_eq_some_iff.mp hNext
    obtain ⟨before, u, hBefore, hu⟩ := ih e (withNode_eq_error_iff.mp hError)
    refine ⟨t :: before, u, by rw [hRest, hBefore]; rfl, ?_, ?_, fun after => ?_⟩
    · exact hDepth ▸ hu.means
    · obtain ⟨nodes, hNodes⟩ := hu.readable
      refine ⟨node :: nodes, ?_⟩
      rw [parseNodes_atNode (TokenStream.next?_withRest hNext before) hStop hMeaning]
      exact withNode_eq_ok_iff.mpr ⟨_, hNodes, rfl⟩
    · rw [List.cons_append,
        parseNodes_atNode (TokenStream.next?_withRest hNext (before ++ u :: after)) hStop hMeaning]
      exact withNode_eq_error_iff.mpr (hu.refused after)
  case inBody =>
    intro stop s t s₁ header e s₂ hNext hStop hMeaning hInner e' hError
    obtain ⟨hRest, -, hDepth⟩ := TokenStream.next?_eq_some_iff.mp hNext
    obtain ⟨before, u, hBefore, hu⟩ := hInner e' hError
    refine ⟨t :: before, u, ?_, ?_, ?_, fun after => ?_⟩
    · have hBody : s₁.rest = before ++ u :: s₂.rest := hBefore
      rw [hRest, hBody]
      rfl
    · -- one more loop is open around the tag than around its body
      obtain ⟨opened, hMeans⟩ := hu.means
      have hInside : s₁.enterLoop.loopDepth + opened = s.loopDepth + (opened + 1) := by
        show s₁.loopDepth + 1 + opened = _
        omega
      exact ⟨opened + 1, hInside ▸ hMeans⟩
    · -- without the tag, the body is not closed, and the loop becomes a text
      obtain ⟨nodes, hNodes⟩ := hu.readable
      have hBody : p.parseNodes (some loopEnd) (s₁.withRest before).enterLoop =
          (.ok ⟨nodes, false⟩, _) := Prod.ext hNodes rfl
      rw [parseNodes_atLoop (TokenStream.next?_withRest hNext before) hStop hMeaning hBody,
        parseNodes_of_unclosed hBody rfl]
      exact ⟨_, rfl⟩
    · have hBody : p.parseNodes (some loopEnd) (s₁.withRest (before ++ u :: after)).enterLoop =
          (.error e', _) := Prod.ext (hu.refused after) rfl
      rw [List.cons_append,
        parseNodes_inBody (TokenStream.next?_withRest hNext (before ++ u :: after)) hStop hMeaning
          hBody]
  case atLoop =>
    intro stop s t s₁ header ⟨inner, innerClosed⟩ s₂ hNext hStop hMeaning hParse hInner ih e hError
    obtain ⟨hRest, -, hDepth⟩ := TokenStream.next?_eq_some_iff.mp hNext
    have hBehind := withNode_eq_error_iff.mp hError
    -- behind a body that is not closed there is nothing that could fail
    cases innerClosed with
    | false =>
      rw [parseNodes_of_unclosed hParse rfl] at hBehind
      simp at hBehind
    | true =>
      obtain ⟨body, v, -, hBodyRead, hBodyTail⟩ :=
        p.parseNodes_of_closed (some loopEnd) s₁.enterLoop inner (by rw [hParse])
      rw [hParse] at hBodyRead hBodyTail
      have hExit : s₂.exitLoop.loopDepth = s.loopDepth := by
        have hOnward := onward_parseNodes p (some loopEnd) s₁.enterLoop
        rw [hParse] at hOnward
        exact hOnward.exitLoop.depth.trans hDepth
      obtain ⟨before, u, hBefore, hu⟩ := ih e hBehind
      have hLoop : ∀ tail, p.parseNodes stop (s.withRest (t :: (body ++ v :: tail))) =
          withNode (loopNode header (openingContent t) t.position (s₁.withRest (body ++ v :: tail))
            (s₂.withRest tail) ⟨inner, true⟩) (p.parseNodes stop (s₂.exitLoop.withRest tail)) :=
        fun tail =>
          parseNodes_atLoop (TokenStream.next?_withRest hNext (body ++ v :: tail)) hStop hMeaning
            (hBodyTail tail)
      refine ⟨t :: (body ++ v :: before), u, ?_, hExit ▸ hu.means, ?_, fun after => ?_⟩
      · have hAfter : s₁.rest = body ++ v :: s₂.rest := hBodyRead
        have hThere : s₂.rest = before ++ u :: (p.parseNodes stop s₂.exitLoop).2.rest := hBefore
        rw [hRest, hAfter, hThere]
        simp [withNode]
      · obtain ⟨nodes, hNodes⟩ := hu.readable
        rw [hLoop]
        exact ⟨_, withNode_eq_ok_iff.mpr ⟨_, hNodes, rfl⟩⟩
      · rw [List.cons_append, List.append_assoc, List.cons_append, hLoop]
        exact withNode_eq_error_iff.mpr (hu.refused after)

-- ---------------------------------------------------------------------------
-- Where a parse leaves the stream
-- ---------------------------------------------------------------------------

/-- A closed body ends just behind its stop tag. -/
theorem offset_of_closed {word : String} {nodes : List Node}
    (hClosed : (p.parseNodes (some word) s).1 = .ok ⟨nodes, true⟩) :
    s.offset < (p.parseNodes (some word) s).2.offset ∧
    ∃ raw position,
      s.tokens[(p.parseNodes (some word) s).2.offset - 1]? = some (.tag word raw position) := by
  obtain ⟨read, t, hStop, hRest, -⟩ := p.parseNodes_of_closed (some word) s nodes hClosed
  have hOnward := p.onward_parseNodes (some word) s
  have hConsumed := hOnward.consumed_eq hRest
  obtain ⟨raw, position, rfl⟩ : ∃ raw position, t = .tag word raw position := by
    cases t with
    | text content position => cases hStop
    | tag content raw position => exact ⟨raw, position, by rw [beq_iff_eq.mp hStop]⟩
  refine ⟨?_, raw, position, ?_⟩
  · simp only [TokenStream.offset, hConsumed, List.length_cons, List.length_append]
    omega
  · rw [← hOnward.tokens]
    exact TokenStream.getElem?_tokens_of_consumed hConsumed

/-- A parse that fails ends just behind the tag it fails at, and bad grammar is reported there. -/
theorem offset_of_error (hError : (p.parseNodes stop s).1 = .error e) :
    ∃ before content raw position after,
      s.rest = before ++ .tag content raw position :: after ∧
      (p.parseNodes stop s).2.offset = s.offset + before.length + 1 ∧
      p.Offends stop s before (.tag content raw position) e ∧
      ∀ place fault, e = .grammar place fault → place = position := by
  obtain ⟨before, t, hRest, hOffends⟩ := p.offends_parseNodes stop s e hError
  have hConsumed := (p.onward_parseNodes stop s).consumed_eq hRest
  obtain ⟨opened, hMeans⟩ := hOffends.means
  obtain ⟨content, raw, position, rfl, hReason⟩ := meaning_eq_error hMeans
  refine ⟨before, content, raw, position, _, hRest, ?_, hOffends, ?_⟩
  · simp only [TokenStream.offset, hConsumed, List.length_cons, List.length_append,
      List.length_reverse]
    omega
  · rintro place fault rfl
    rcases hReason with ⟨reason, hReason⟩ | ⟨fault', hFault⟩
    · cases hReason
    · cases hFault
      rfl

/-- Building the node of a tag reads on, whether it succeeds or not. -/
theorem onward_parseTag (p : Parser) (construct : Construct) (content : String)
    (position : Position) (s : TokenStream) :
    s.Onward (p.parseTag construct content position s).2 := by
  cases construct with
  | placeholder => exact .refl s
  | inclusion =>
    unfold parseTag
    cases includeTarget content <;> exact .refl s
  | loop =>
    unfold parseTag
    cases p.openLoop content position s.loopDepth with
    | error e => exact .refl s
    | ok header =>
      have hOnward := (onward_parseNodes p (some loopEnd) s.enterLoop).exitLoop
      dsimp only [parseUntil]
      rcases hBody : p.parseNodes (some loopEnd) s.enterLoop with ⟨_ | body, s₂⟩
      all_goals
        rw [hBody] at hOnward
        exact hOnward

end Parser

-- ---------------------------------------------------------------------------
-- Calls
-- ---------------------------------------------------------------------------

/-- A call that a stream can be given to. The parsers of two calls need not be the same. -/
inductive StreamCall where
  | next
  | peek
  | parseUntil (p : Parser) (stop : String)
  | parseTag (p : Parser) (construct : Construct) (content : String) (position : Position)

/-- The stream that a call leaves behind, whether it succeeds or not. -/
def StreamCall.after (s : TokenStream) : StreamCall → TokenStream
  | next => (s.next?.map Prod.snd).getD s
  | peek => s
  | parseUntil p stop => (p.parseUntil s stop).2
  | parseTag p construct content position => (p.parseTag construct content position s).2

/-- The stream that calls leave behind, one after the other. -/
def TokenStream.afterCalls (s : TokenStream) (calls : List StreamCall) : TokenStream :=
  calls.foldl StreamCall.after s

theorem StreamCall.onward_after (s : TokenStream) (call : StreamCall) :
    s.Onward (call.after s) := by
  cases call with
  | next =>
    unfold after
    cases hNext : s.next? with
    | none => exact .refl s
    | some next => exact TokenStream.onward_next? hNext
  | peek => exact .refl s
  | parseUntil p stop => exact p.onward_parseNodes (some stop) s
  | parseTag p construct content position => exact p.onward_parseTag construct content position s

theorem TokenStream.onward_afterCalls (s : TokenStream) (calls : List StreamCall) :
    s.Onward (s.afterCalls calls) := by
  induction calls generalizing s with
  | nil => exact .refl s
  | cons call calls ih => exact (call.onward_after s).trans (ih (call.after s))

/--
**A stream survives whatever is done with it.** After any calls on the stream of a template, failed
ones among them, it has the tokens of the template, stands within them and inside no loop, and what
was read and what is to come are the template. No further call changes that or reads backwards. A
body that is closed ends just behind its stop tag, one that is not ends with the stream, and a parse
that fails ends just behind the tag it fails at, the place of which bad grammar carries.
-/
theorem stream_survives_calls (template : String) (calls : List StreamCall) :
    let s := (TokenStream.ofTokens (Token.scan template)).afterCalls calls
    s.tokens = Token.scan template ∧ s.offset ≤ s.tokens.length ∧ s.loopDepth = 0 ∧
    s.sourceSince 0 ++ sourceOf s.rest = template ∧
    (∀ call : StreamCall,
      (call.after s).tokens = s.tokens ∧ s.offset ≤ (call.after s).offset ∧
      (call.after s).loopDepth = s.loopDepth) ∧
    ∀ (p : Parser) (stop : String),
      match p.parseUntil s stop with
      | (.ok ⟨_, true⟩, s') =>
        s.offset < s'.offset ∧
        ∃ raw position, s.tokens[s'.offset - 1]? = some (.tag stop raw position)
      | (.ok ⟨_, false⟩, s') => s'.exhausted = true
      | (.error e, s') =>
        ∃ before content raw position after,
          s.rest = before ++ .tag content raw position :: after ∧
          s'.offset = s.offset + before.length + 1 ∧
          p.Offends (some stop) s before (.tag content raw position) e ∧
          ∀ place fault, e = .grammar place fault → place = position := by
  intro s
  have hOnward : (TokenStream.ofTokens (Token.scan template)).Onward s :=
    TokenStream.onward_afterCalls _ calls
  have hTokens : s.tokens = Token.scan template := hOnward.tokens
  refine ⟨hTokens, s.offset_le_length_tokens, hOnward.depth, ?_, ?_, ?_⟩
  · rw [TokenStream.sourceSince_append_rest, hTokens, sourceOf_scan]
  · intro call
    have hCall := call.onward_after s
    exact ⟨hCall.tokens, hCall.offset_le, hCall.depth⟩
  · intro p stop
    have hClosed := @Parser.offset_of_closed p s stop
    have hEnds := p.ends_parseNodes (some stop) s
    have hFailed := @Parser.offset_of_error p (some stop) s
    unfold Parser.parseUntil
    generalize p.parseNodes (some stop) s = parsed at hClosed hEnds hFailed ⊢
    obtain ⟨e | ⟨nodes, _ | _⟩, s'⟩ := parsed
    · exact hFailed rfl
    · exact List.isEmpty_iff.mpr ((hEnds _ rfl).1 rfl)
    · exact hClosed rfl

end Stencil
