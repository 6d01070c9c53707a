import Stencil.Node
import Stencil.Tag
import Stencil.TokenStream

/-!
# Stencil — parsing

A parser offers each tag to a chain of constructs, in order, and the first that claims it builds the
node. A tag that none claims stays in the template as text. A loop reads its body from the same
stream up to its closing tag, by parsing again one level deeper.

A loop that is never closed is no error: everything from its opening tag to the end of the stream
becomes one text node, written exactly as it was.

* `Parser.parse`      — the tree of a list of tokens.
* `Parser.parseUntil` — the nodes up to a stop tag, on a stream that can be read on afterwards.
* `Parser.parseTag`   — the node of one tag, by one construct.
* `Parser.parseNodes_eq` — how the three fit together, one token at a time.

A failing parse also says where the stream stands afterwards.
-/

namespace Stencil

/-- The forms of tag that a parser can know. With forms of one's own, templates are read by another
`TemplateReader`. -/
inductive Construct where
  | loop
  | inclusion
  | placeholder
  deriving DecidableEq, Repr

namespace Construct

/-- The name of the construct in descriptions of a parser. -/
def name : Construct → String
  | loop        => "loop"
  | inclusion   => "include"
  | placeholder => "variable"

/-- Whether the construct takes a tag with this content for its own. A loop takes every tag that
starts with the loop word, so a tag such as `format` is a malformed loop and not a placeholder. -/
def claims (construct : Construct) (content : String) : Bool :=
  match construct with
  | loop        => loopWord.isPrefixOf content.toList
  | inclusion   => includeMark.isPrefixOf content.toList
  | placeholder => isPath content.toList

/-- Every construct, in the order in which a parser tries them unless told otherwise. -/
def standard : List Construct := [loop, inclusion, placeholder]

end Construct

/-- A chain of constructs and the number of loops that may be open at once. -/
structure Parser where
  constructs     : List Construct := Construct.standard
  maxLoopNesting : Nat := ({} : Limits).maxLoopNesting
  deriving DecidableEq, Repr, Inhabited

/-- The nodes read up to a stop tag, and whether that tag was found. -/
structure Body where
  nodes  : List Node
  closed : Bool
  deriving Repr

/-- What comes of reading from the stream `s`: a result, and the stream where reading ended, which
is never before `s`. -/
structure Reading (s : TokenStream) (α : Type) where
  result  : Except Error α
  stream  : TokenStream
  forward : stream.rest.length ≤ s.rest.length

/-- Body `r`, read from `s'`, with a node in front that was read on the way from `s` to `s'`. -/
def Reading.after {s s' : TokenStream} (r : Reading s' Body) (node : Node)
    (h : s'.rest.length ≤ s.rest.length) : Reading s Body where
  result  := r.result.map fun body => { body with nodes := node :: body.nodes }
  stream  := r.stream
  forward := Nat.le_trans r.forward h

namespace Parser

/-- The parser with the nesting limit of `limits`. -/
def withLimits (p : Parser) (limits : Limits) : Parser :=
  { p with maxLoopNesting := limits.maxLoopNesting }

/-- The header of a loop that may open at `position` while `depth` loops are open. -/
def openLoop (p : Parser) (content : String) (position : Position) (depth : Nat) :
    Except Error LoopHeader :=
  -- a malformed header is reported before the depth is looked at
  match LoopHeader.read? content with
  | none => .error (.grammar position (.malformedLoop content))
  | some header =>
    if p.maxLoopNesting ≤ depth then
      .error (.grammar position (.nestingLimit p.maxLoopNesting))
    else .ok header

/-- The text of a loop that is never closed: its opening tag, the last one read when its body
opened, and all that was read since. A stream that had read no tag lends none, and the tag is
written anew. -/
def unclosedText (content : String) (opened ended : TokenStream) : String :=
  match opened.offset with
  | 0 => tagSource content ++ ended.sourceSince 0
  | n + 1 => ended.sourceSince n

/-- The node of a loop whose body was read from `opened` to `ended`. -/
def loopNode (header : LoopHeader) (content : String) (position : Position)
    (opened ended : TokenStream) (body : Body) : Node :=
  if body.closed then .loop header.item header.collection body.nodes position
  else .text (unclosedText content opened ended) position

/-- The nodes from `s` up to the tag `stop`, or up to the end of the stream. -/
def readNodes (p : Parser) (stop : Option String) (s : TokenStream) : Reading s Body :=
  match hs : s.next? with
  | none => ⟨.ok ⟨[], false⟩, s, Nat.le_refl _⟩
  | some (.text content position, s₁) =>
    have h₁ := TokenStream.length_rest_of_next? hs
    (p.readNodes stop s₁).after (.text content position) (by omega)
  | some (.tag content _ position, s₁) =>
    have h₁ := TokenStream.length_rest_of_next? hs
    -- the stop tag is seen before any construct could claim it
    if stop = some content then ⟨.ok ⟨[], true⟩, s₁, by omega⟩
    else
      match p.constructs.find? (·.claims content) with
      | none => (p.readNodes stop s₁).after (.text (tagSource content) position) (by omega)
      | some .placeholder =>
        (p.readNodes stop s₁).after (.placeholder content position) (by omega)
      | some .inclusion =>
        match includeTarget content with
        | .error e => ⟨.error e, s₁, by omega⟩
        | .ok name => (p.readNodes stop s₁).after (.inclusion name position) (by omega)
      | some .loop =>
        match p.openLoop content position s₁.loopDepth with
        | .error e => ⟨.error e, s₁, by omega⟩
        | .ok header =>
          -- the loop counts as left whatever became of its body
          match p.readNodes (some loopEnd) s₁.enterLoop with
          | ⟨.error e, s₂, h₂⟩ => ⟨.error e, s₂.exitLoop, by simp at h₂ ⊢; omega⟩
          | ⟨.ok body, s₂, h₂⟩ =>
            (p.readNodes stop s₂.exitLoop).after (loopNode header content position s₁ s₂ body)
              (by simp at h₂ ⊢; omega)
termination_by s.rest.length
decreasing_by all_goals simp_all; try omega

/-- The nodes from `s` up to the tag `stop`, and the stream where reading ended. -/
def parseNodes (p : Parser) (stop : Option String) (s : TokenStream) :
    Except Error Body × TokenStream :=
  ((p.readNodes stop s).result, (p.readNodes stop s).stream)

/-- The nodes from `s` up to a tag whose content is exactly `stop`, which is read too. -/
def parseUntil (p : Parser) (s : TokenStream) (stop : String) : Except Error Body × TokenStream :=
  p.parseNodes (some stop) s

/-- The node that `construct` builds from a tag whose content stands just before `s`; a loop reads
its body from `s`. -/
def parseTag (p : Parser) (construct : Construct) (content : String) (position : Position)
    (s : TokenStream) : Except Error Node × TokenStream :=
  match construct with
  | .placeholder => (.ok (.placeholder content position), s)
  | .inclusion =>
    match includeTarget content with
    | .error e => (.error e, s)
    | .ok name => (.ok (.inclusion name position), s)
  | .loop =>
    match p.openLoop content position s.loopDepth with
    | .error e => (.error e, s)
    | .ok header =>
      match p.parseUntil s.enterLoop loopEnd with
      | (.error e, s₂) => (.error e, s₂.exitLoop)
      | (.ok body, s₂) => (.ok (loopNode header content position s s₂ body), s₂.exitLoop)

/-- The tree of a whole template, given its tokens. -/
def parse (p : Parser) (tokens : List Token) : Except Error (List Node) :=
  (p.parseNodes none (.ofTokens tokens)).1.map Body.nodes

/-- The tree of a whole template. -/
def parseText (p : Parser) (template : String) : Except Error (List Node) :=
  p.parse (Token.scan template)

/-- A body with one more node in front. -/
def withNode (node : Node) (r : Except Error Body × TokenStream) :
    Except Error Body × TokenStream :=
  (r.1.map fun body => { body with nodes := node :: body.nodes }, r.2)

/-- One token at a time: a text is a node; the stop tag ends the body; any other tag is the node of
the first construct that claims it, or text when none does. -/
theorem parseNodes_eq (p : Parser) (stop : Option String) (s : TokenStream) :
    p.parseNodes stop s =
      match s.next? with
      | none => (.ok ⟨[], false⟩, s)
      | some (.text content position, s₁) =>
        withNode (.text content position) (p.parseNodes stop s₁)
      | some (.tag content _ position, s₁) =>
        if stop = some content then (.ok ⟨[], true⟩, s₁)
        else
          match p.constructs.find? (·.claims content) with
          | none => withNode (.text (tagSource content) position) (p.parseNodes stop s₁)
          | some construct =>
            match p.parseTag construct content position s₁ with
            | (.error e, s₂) => (.error e, s₂)
            | (.ok node, s₂) => withNode node (p.parseNodes stop s₂) := by
  unfold parseNodes
  rw [readNodes]
  split
  · next h => simp [h]
  · next content position s₁ h => simp [h, Reading.after, withNode]
  · next content raw position s₁ h =>
    simp only [h]
    by_cases hstop : stop = some content
    · simp [hstop]
    · simp only [hstop, if_false]
      cases hfind : p.constructs.find? (·.claims content) with
      | none => simp [Reading.after, withNode]
      | some construct =>
        cases construct with
        | placeholder => simp [parseTag, Reading.after, withNode]
        | inclusion =>
          cases htarget : includeTarget content <;>
            simp [parseTag, htarget, Reading.after, withNode]
        | loop =>
          cases hopen : p.openLoop content position s₁.loopDepth with
          | error e => simp [parseTag, hopen]
          | ok header =>
            simp only [parseTag, hopen, parseUntil, parseNodes]
            split
            · next e s₂ h₂ hbody => simp [hbody]
            · next body s₂ h₂ hbody => simp [hbody, Reading.after, withNode]

end Parser

end Stencil
