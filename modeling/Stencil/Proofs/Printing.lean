import Mathlib
import Stencil.Proofs.CallDepth
import Stencil.Proofs.Pasting
import Stencil.Proofs.TagGrammar

/-!
# Stencil — trees written as templates

A tree can be written as a template: texts as they are, every other node as its tag, and a loop with
its body between two tags. This module says for which trees parsing brings the tree back.

Two things could go wrong. Cutting might not find the seams: a text runs into the text behind it, or
takes half of the pair that opens a tag. And a tag might be taken for another: a path for a loop, or
the end of one loop for that of another.

* `print` — a list of trees as a template. `tokensOf` is what it is made of, token by token.
* `Printable` — trees that neither happens to.
* `wellCut_tokensOf` — so the template is cut where it was put together.
* `LoopHeader.read?_write`, `standardMeaning_path` — so each tag means the node that it was written
  for.
* `Pass.adds_tokensOf` — so a walk over the tokens adds the trees, wherever they stand.
* `Parser.parse_print` — printing and parsing gives the same trees, in new places.
-/

namespace Stencil

open Text

theorem not_hasPair_of_not_mem {c : Char} {cs : List Char} (hNone : c ∉ cs) : ¬ HasPair c cs :=
  fun hPair => hNone (hPair.subset List.mem_cons_self)

-- ---------------------------------------------------------------------------
-- Printing
-- ---------------------------------------------------------------------------

/-- The header as the content of a loop tag. -/
def LoopHeader.write (header : LoopHeader) : String :=
  "for " ++ header.item ++ " in " ++ header.collection

mutual

def Node.print : Node → String
  | .text content _ => content
  | .placeholder path _ => tagSource path
  | .inclusion name _ => includeSource name
  | .loop item collection body _ =>
    tagSource (LoopHeader.write ⟨item, collection⟩) ++ print body ++ tagSource loopEnd
termination_by structural node => node

/-- Trees as the template that they stand for. -/
def print : List Node → String
  | [] => ""
  | node :: nodes => node.print ++ print nodes
termination_by structural nodes => nodes

end

mutual

/-- The node with all places forgotten. -/
def Node.unplaced : Node → Node
  | .text content _ => .text content .start
  | .placeholder path _ => .placeholder path .start
  | .inclusion name _ => .inclusion name .start
  | .loop item collection body _ => .loop item collection (unplaced body) .start
termination_by structural node => node

def unplaced : List Node → List Node
  | [] => []
  | node :: nodes => node.unplaced :: unplaced nodes
termination_by structural nodes => nodes

end

/-- What a text is like in front of its siblings `after`. Only at the top may nothing at all be
written after the last of them. -/
structure TextPrintable (top : Bool) (content : String) (after : List Node) : Prop where
  nonempty : content ≠ ""
  plain    : ¬ HasPair '{' content.toList
  apart    : ∀ sibling position rest, after ≠ .text sibling position :: rest
  ends     : content.toList.getLast? = some '{' → top = true ∧ after = []

mutual

/-- The node comes back from its template in front of its siblings `after`. -/
def Node.Printable (top : Bool) (after : List Node) : Node → Prop
  | .text content _ => TextPrintable top content after
  | .placeholder path _ => isPath path.toList = true ∧ ¬ loopWord <+: path.toList
  | .inclusion name _ => Includable name
  | .loop item collection body _ =>
    isName item.toList = true ∧ isPath collection.toList = true ∧ Printable false body
termination_by structural node => node

/-- The trees come back from their template; `top` says that they are in no loop. -/
def Printable (top : Bool) : List Node → Prop
  | [] => True
  | node :: nodes => node.Printable top nodes ∧ Printable top nodes
termination_by structural nodes => nodes

end

-- ---------------------------------------------------------------------------
-- The cut
-- ---------------------------------------------------------------------------

/-- The token of a tag that is written without blanks. -/
def tagToken (content : String) : Token := .tag content (tagSource content) .start

mutual

def Node.tokens : Node → List Token
  | .text content _ => [.text content .start]
  | .placeholder path _ => [tagToken path]
  | .inclusion name _ => [tagToken ("include:" ++ name)]
  | .loop item collection body _ =>
    tagToken (LoopHeader.write ⟨item, collection⟩) :: (tokensOf body ++ [tagToken loopEnd])
termination_by structural node => node

/-- The tokens that trees are written with. -/
def tokensOf : List Node → List Token
  | [] => []
  | node :: nodes => node.tokens ++ tokensOf nodes
termination_by structural nodes => nodes

end

theorem tokensOf_loop (item collection : String) (body nodes : List Node) (position : Position) :
    tokensOf (.loop item collection body position :: nodes) =
      tagToken (LoopHeader.write ⟨item, collection⟩) ::
        (tokensOf body ++ tagToken loopEnd :: tokensOf nodes) := by
  simp [tokensOf, Node.tokens]

theorem toList_print (nodes : List Node) :
    (print nodes).toList = (tokensOf nodes).flatMap fun t => t.source.toList := by
  induction nodes using Node.forest_induction with
  | nil => rfl
  | text content position nodes ih =>
    rw [print, String.toList_append, ih]
    rfl
  | placeholder path position nodes ih =>
    rw [print, String.toList_append, ih]
    rfl
  | inclusion name position nodes ih =>
    rw [print, String.toList_append, ih]
    rfl
  | loop item collection body position nodes ihBody ihNodes =>
    rw [print, Node.print, tokensOf_loop, List.flatMap_cons, List.flatMap_append,
      List.flatMap_cons, ← ihBody, ← ihNodes]
    simp only [String.toList_append, List.append_assoc]
    rfl

/-- A tag is cut out as it was written if there is no closing brace in it, and no blank at an
end. -/
theorem tagFits_of_plain {content : String} (hNone : '\x7d' ∉ content.toList)
    (hTrim : trim content.toList = content.toList) : TagFits content (tagSource content) := by
  refine ⟨content, rfl, not_hasPair_of_not_mem hNone, fun hLast => ?_, ?_⟩
  · exact hNone (List.mem_of_getLast? hLast)
  · rw [hTrim, String.ofList_toList]

theorem tagFits_path {path : String} (hPath : isPath path.toList = true) :
    TagFits path (tagSource path) := by
  have hPlain := plain_of_isPath hPath
  refine tagFits_of_plain (fun hMem => (hPlain _ hMem).2 (by decide)) (trim_eq_self_iff.mpr ?_)
  exact ⟨fun c hHead => (hPlain c (List.mem_of_mem_head? hHead)).1,
    fun c hLast => (hPlain c (List.mem_of_mem_getLast? hLast)).1⟩

namespace LoopHeader

variable {header : LoopHeader}

theorem toList_write (header : LoopHeader) :
    header.write.toList =
      loopWord ++ ' ' :: (header.item.toList ++ ' ' :: 'i' :: 'n' :: ' ' ::
        header.collection.toList) := by
  simp [write, loopWord]

theorem isPrefixOf_write (header : LoopHeader) :
    loopWord.isPrefixOf header.write.toList = true := by
  rw [toList_write]
  exact List.isPrefixOf_iff_prefix.mpr (List.prefix_append _ _)

theorem tagFits_write (hItem : isName header.item.toList = true)
    (hCollection : isPath header.collection.toList = true) :
    TagFits header.write (tagSource header.write) := by
  have hPlain := plain_of_isPath hCollection
  obtain ⟨-, hWords⟩ := isName_iff.mp hItem
  refine tagFits_of_plain ?_ (trim_eq_self_iff.mpr ⟨?_, ?_⟩)
  · intro hMem
    rw [toList_write] at hMem
    simp only [loopWord, List.mem_append, List.mem_cons] at hMem
    rcases hMem with hFor | hSpace | hIn | hSpace | hI | hN | hSpace | hIn
    · simp at hFor
    · cases hSpace
    · exact not_mem_marks_of_isWord (hWords _ hIn) (by decide)
    · cases hSpace
    · cases hI
    · cases hN
    · cases hSpace
    · exact (hPlain _ hIn).2 (by decide)
  · intro c hHead
    rw [toList_write] at hHead
    obtain rfl : 'f' = c := by simpa [loopWord] using hHead
    decide
  · -- it ends as the collection does
    intro c hLast
    have hWhole : header.write.toList = (loopWord ++ ' ' :: (header.item.toList ++
        [' ', 'i', 'n', ' '])) ++ header.collection.toList := by
      rw [toList_write]
      simp
    rw [hWhole, List.getLast?_append_of_ne_nil _ (ne_nil_of_isPath hCollection)] at hLast
    exact (hPlain c (List.mem_of_mem_getLast? hLast)).1

end LoopHeader

/-- **The template is cut where it was put together**, in front of tokens that no text runs into. -/
theorem wellCut_tokensOf (nodes : List Node) :
    ∀ {top : Bool} {after : List Token}, Printable top nodes → WellCut after →
      (top = true → after = []) → (∀ t ∈ after.head?, ∃ content, t = tagToken content) →
      WellCut (tokensOf nodes ++ after) := by
  induction nodes using Node.forest_induction with
  | nil =>
    intro top after hPrints hAfter hTop hTag
    exact hAfter
  | text content position nodes ih =>
    intro top after hPrints hAfter hTop hTag
    obtain ⟨⟨hNonempty, hPlain, hApart, hEnds⟩, hRest⟩ := hPrints
    have hNotTail := not_unclosed_of_not_hasPair hPlain
    refine ⟨⟨?_, fun _ => hPlain, fun h => absurd h hNotTail, ?_, ?_⟩, ih hRest hAfter hTop hTag⟩
    · simpa using hNonempty
    · -- half of a pair only where nothing follows
      intro hMore hHalf
      obtain ⟨hHere, rfl⟩ := hEnds hHalf
      exact hMore (hTop hHere)
    · -- what follows starts with a tag, if there is anything
      cases nodes with
      | nil =>
        cases after with
        | nil => trivial
        | cons t after =>
          obtain ⟨content, rfl⟩ := hTag t rfl
          trivial
      | cons node nodes =>
        cases node with
        | text sibling position => exact absurd rfl (hApart sibling position nodes)
        | placeholder path position => trivial
        | inclusion name position => trivial
        | loop item collection body position => trivial
  | placeholder path position nodes ih =>
    intro top after hPrints hAfter hTop hTag
    obtain ⟨⟨hPath, -⟩, hRest⟩ := hPrints
    exact ⟨tagFits_path hPath, ih hRest hAfter hTop hTag⟩
  | inclusion name position nodes ih =>
    intro top after hPrints hAfter hTop hTag
    obtain ⟨hName, hRest⟩ := hPrints
    exact ⟨Includable.tagFits hName, ih hRest hAfter hTop hTag⟩
  | loop item collection body position nodes ihBody ihNodes =>
    intro top after hPrints hAfter hTop hTag
    obtain ⟨⟨hItem, hCollection, hBody⟩, hRest⟩ := hPrints
    -- the body is not at the top: there is always a tag behind it
    have hEnd : WellCut (tagToken loopEnd :: (tokensOf nodes ++ after)) :=
      ⟨tagFits_of_plain (by decide) (by decide), ihNodes hRest hAfter hTop hTag⟩
    have hInside := ihBody hBody hEnd (fun h => by cases h) fun t hHead =>
      ⟨loopEnd, (Option.mem_some.mp hHead).symm⟩
    rw [tokensOf_loop, List.cons_append, List.append_assoc, List.cons_append]
    exact ⟨LoopHeader.tagFits_write hItem hCollection, hInside⟩

theorem scan_print {nodes : List Node} (hPrints : Printable true nodes) :
    (Token.scan (print nodes)).map Token.unplaced = (tokensOf nodes).map Token.unplaced := by
  have hCut : WellCut (tokensOf nodes ++ []) :=
    wellCut_tokensOf nodes hPrints trivial (fun _ => rfl) (by simp)
  rw [List.append_nil] at hCut
  rw [Token.scan, map_unplaced_locate, toList_print]
  exact map_pieces_of_wellCut hCut

-- ---------------------------------------------------------------------------
-- What the tags mean
-- ---------------------------------------------------------------------------

namespace LoopHeader

variable {header : LoopHeader}

/-- A header that is written with single spaces, taken apart. -/
def written (hItem : isName header.item.toList = true)
    (hCollection : isPath header.collection.toList = true) : Parts where
  afterFor   := " "
  item       := header.item
  beforeIn   := " "
  afterIn    := " "
  collection := header.collection
  blank_afterFor := by decide
  word_item      := isName_iff.mp hItem
  blank_beforeIn := by decide
  blank_afterIn  := by decide
  path           := hCollection

/-- **A header is read as it was written.** -/
theorem read?_write (hItem : isName header.item.toList = true)
    (hCollection : isPath header.collection.toList = true) :
    read? header.write = some header := by
  have hText : (written hItem hCollection).text = header.write := by
    rw [← String.toList_inj, Parts.toList_text, toList_write]
    simp [written, Parts.fromItem, Parts.fromIn]
  rw [← hText, Parts.read?_text]
  rfl

end LoopHeader

variable {n depth : Nat} {raw : String} {position : Position}

/-- The tag of a path is a placeholder, since no loop and no include can claim it. -/
theorem standardMeaning_path {path : String} (hPath : isPath path.toList = true)
    (hWord : ¬ loopWord <+: path.toList) :
    standardMeaning n depth (.tag path raw position) = .ok (.node (.placeholder path position)) := by
  have hLoop : loopWord.isPrefixOf path.toList = false := by
    rw [← Bool.not_eq_true]
    exact fun h => hWord (List.isPrefixOf_iff_prefix.mp h)
  have hMark : includeMark.isPrefixOf path.toList = false := by
    rw [← Bool.not_eq_true]
    intro h
    rw [isPath_eq_false_of_mark (List.isPrefixOf_iff_prefix.mp h)] at hPath
    cases hPath
  simp [standardMeaning, hLoop, hMark, hPath]

theorem standardMeaning_include {name : String} (hName : Includable name) :
    standardMeaning n depth (.tag ("include:" ++ name) raw position) =
      .ok (.node (.inclusion name position)) := by
  rw [← Parser.meaning_standard]
  exact hName.meaning_include rfl depth raw position

theorem standardMeaning_loop {header : LoopHeader} (hItem : isName header.item.toList = true)
    (hCollection : isPath header.collection.toList = true) (hDepth : depth < n) :
    standardMeaning n depth (.tag header.write raw position) = .ok (.loop header) := by
  simp [standardMeaning, header.isPrefixOf_write, LoopHeader.read?_write hItem hCollection,
    Nat.not_le.mpr hDepth]

-- ---------------------------------------------------------------------------
-- The walk
-- ---------------------------------------------------------------------------

theorem Token.eq_text_of_unplaced {t : Token} {content : String}
    (hSame : t.unplaced = (Token.text content .start).unplaced) : ∃ p, t = .text content p := by
  cases t with
  | text content' p =>
    cases hSame
    exact ⟨p, rfl⟩
  | tag content' raw p => cases hSame

theorem Token.eq_tag_of_unplaced {t : Token} {content : String}
    (hSame : t.unplaced = (tagToken content).unplaced) :
    ∃ p, t = .tag content (tagSource content) p := by
  cases t with
  | text content' p => cases hSame
  | tag content' raw p =>
    cases hSame
    exact ⟨p, rfl⟩

namespace Pass

variable {meaning : Nat → Token → Except Error Meaning} {pass : Pass} {t : Token} {ts : List Token}

theorem run_node {node : Node} (hStay : ¬ pass.Closes t)
    (hMeaning : meaning pass.loops.length t = .ok (.node node)) :
    run meaning (t :: ts) pass = run meaning ts (pass.add node) := by
  rw [run, step_stay hStay, hMeaning]
  rfl

theorem run_enter {header : LoopHeader} (hStay : ¬ pass.Closes t)
    (hMeaning : meaning pass.loops.length t = .ok (.loop header)) :
    run meaning (t :: ts) pass = run meaning ts (pass.enter header t.position (t :: ts)) := by
  rw [run, step_stay hStay, hMeaning]
  rfl

theorem run_close (hClose : pass.Closes t) :
    run meaning (t :: ts) pass = run meaning ts pass.close := by
  rw [run, step_close hClose]

/-- Only the tag of the loop end starts as it does. -/
theorem not_closes_of_head {content raw : String} {position : Position}
    (hHead : content.toList.head? ≠ some '/') : ¬ pass.Closes (.tag content raw position) := by
  rintro ⟨hTag, -⟩
  obtain rfl : content = loopEnd := beq_iff_eq.mp hTag
  exact hHead rfl

theorem not_closes_path {path raw : String} {position : Position}
    (hPath : isPath path.toList = true) : ¬ pass.Closes (.tag path raw position) := by
  refine not_closes_of_head fun hHead => ?_
  exact (plain_of_isPath hPath '/' (List.mem_of_mem_head? hHead)).2 (by decide)

theorem not_closes_write (header : LoopHeader) {raw : String} {position : Position} :
    ¬ pass.Closes (.tag header.write raw position) :=
  not_closes_of_head (by simp [LoopHeader.toList_write, loopWord])

/-- Going over the tokens `ts`, a walk adds the trees, up to their places, whatever follows. -/
def Adds (n : Nat) (ts : List Token) (nodes : List Node) (pass : Pass) : Prop :=
  ∀ rest, ∃ nodes', unplaced nodes' = unplaced nodes ∧
    run (standardMeaning n) (ts ++ rest) pass = run (standardMeaning n) rest (pass.addAll nodes')

theorem adds_nil (n : Nat) (pass : Pass) : pass.Adds n [] [] := fun _ => ⟨[], rfl, rfl⟩

theorem Adds.cons {n : Nat} {node placed : Node} {nodes : List Node} (hStay : ¬ pass.Closes t)
    (hMeaning : standardMeaning n pass.loops.length t = .ok (.node placed))
    (hSame : placed.unplaced = node.unplaced) (hRest : (pass.add placed).Adds n ts nodes) :
    pass.Adds n (t :: ts) (node :: nodes) := by
  intro rest
  obtain ⟨nodes', hNodes, hRun⟩ := hRest rest
  refine ⟨placed :: nodes', ?_, ?_⟩
  · rw [unplaced, unplaced, hNodes, hSame]
  · rw [List.cons_append, run_node hStay hMeaning, hRun, addAll_cons]

theorem Adds.loop {n : Nat} {header : LoopHeader} {position : Position} {opening closing : Token}
    {inner : List Token} {body nodes : List Node} (hStay : ¬ pass.Closes opening)
    (hMeaning : standardMeaning n pass.loops.length opening = .ok (.loop header))
    (hEnd : closing.isTag loopEnd = true)
    (hBody : ∀ written, (pass.enter header opening.position written).Adds n inner body)
    (hRest : ∀ loop, (pass.add loop).Adds n ts nodes) :
    pass.Adds n (opening :: (inner ++ closing :: ts))
      (.loop header.item header.collection body position :: nodes) := by
  intro rest
  -- the body is read in a frame of its own, which the closing tag puts into the frame around it
  let written := opening :: (inner ++ closing :: (ts ++ rest))
  let entered := pass.enter header opening.position written
  obtain ⟨body', hBody', hRunBody⟩ := hBody written (closing :: (ts ++ rest))
  have hClose : (entered.addAll body').Closes closing := ⟨hEnd, List.cons_ne_nil _ _⟩
  let placed : Node := .loop header.item header.collection body' opening.position
  obtain ⟨nodes', hNodes, hRun⟩ := hRest placed rest
  refine ⟨placed :: nodes', ?_, ?_⟩
  · simp only [placed, unplaced, Node.unplaced, hBody', hNodes]
  · calc run (standardMeaning n) ((opening :: (inner ++ closing :: ts)) ++ rest) pass
        = run (standardMeaning n) written pass := by simp [written]
      _ = run (standardMeaning n) (inner ++ closing :: (ts ++ rest)) entered :=
          run_enter hStay hMeaning
      _ = run (standardMeaning n) (closing :: (ts ++ rest)) (entered.addAll body') := hRunBody
      _ = run (standardMeaning n) (ts ++ rest) (pass.add placed) := by
          rw [run_close hClose, close_addAll_enter]
      _ = run (standardMeaning n) rest ((pass.add placed).addAll nodes') := hRun
      _ = run (standardMeaning n) rest (pass.addAll (placed :: nodes')) := by rw [addAll_cons]

/-- **A walk over the tokens of printable trees adds these trees**, in the places where the tokens
stand, inside whatever loops are open. -/
theorem adds_tokensOf (n : Nat) (nodes : List Node) :
    ∀ {top : Bool} {ts : List Token} {pass : Pass}, Printable top nodes →
      ts.map Token.unplaced = (tokensOf nodes).map Token.unplaced →
      pass.loops.length + loopHeight nodes ≤ n → pass.Adds n ts nodes := by
  induction nodes using Node.forest_induction with
  | nil =>
    intro top ts pass hPrints hTokens hRoom
    obtain rfl := List.map_eq_nil_iff.mp hTokens
    exact adds_nil n pass
  | text content position nodes ih =>
    intro top ts pass hPrints hTokens hRoom
    obtain ⟨-, hPrints⟩ := hPrints
    obtain ⟨t, ts, rfl, hSame, hRest⟩ := List.map_eq_cons_iff.mp hTokens
    obtain ⟨p, rfl⟩ := Token.eq_text_of_unplaced hSame
    have hLess := Nat.le_trans (Nat.add_le_add_left (loopHeight_le_cons _ nodes) _) hRoom
    have hStay : ¬ pass.Closes (.text content p) := fun h => by cases h.1
    exact .cons hStay rfl rfl (ih hPrints hRest hLess)
  | placeholder path position nodes ih =>
    intro top ts pass hPrints hTokens hRoom
    obtain ⟨⟨hPath, hWord⟩, hPrints⟩ := hPrints
    obtain ⟨t, ts, rfl, hSame, hRest⟩ := List.map_eq_cons_iff.mp hTokens
    obtain ⟨p, rfl⟩ := Token.eq_tag_of_unplaced hSame
    have hLess := Nat.le_trans (Nat.add_le_add_left (loopHeight_le_cons _ nodes) _) hRoom
    exact .cons (not_closes_path hPath) (standardMeaning_path hPath hWord) rfl
      (ih hPrints hRest hLess)
  | inclusion name position nodes ih =>
    intro top ts pass hPrints hTokens hRoom
    obtain ⟨hName, hPrints⟩ := hPrints
    obtain ⟨t, ts, rfl, hSame, hRest⟩ := List.map_eq_cons_iff.mp hTokens
    obtain ⟨p, rfl⟩ := Token.eq_tag_of_unplaced hSame
    have hLess := Nat.le_trans (Nat.add_le_add_left (loopHeight_le_cons _ nodes) _) hRoom
    have hStay : ¬ pass.Closes (.tag ("include:" ++ name) (tagSource ("include:" ++ name)) p) :=
      not_closes_of_head (by rw [toList_includeContent]; simp [includeMark])
    exact .cons hStay (standardMeaning_include hName) rfl (ih hPrints hRest hLess)
  | loop item collection body position nodes ihBody ihNodes =>
    intro top ts pass hPrints hTokens hRoom
    obtain ⟨⟨hItem, hCollection, hBody⟩, hPrints⟩ := hPrints
    -- the tag that opens the loop, its body, and the tag that closes it
    rw [tokensOf_loop, List.map_cons, List.map_append, List.map_cons] at hTokens
    obtain ⟨opening, behind, rfl, hOpening, hBehind⟩ := List.map_eq_cons_iff.mp hTokens
    obtain ⟨inner, behind, rfl, hInner, hBehind⟩ := List.map_eq_append_iff.mp hBehind
    obtain ⟨closing, ts, rfl, hClosing, hRest⟩ := List.map_eq_cons_iff.mp hBehind
    obtain ⟨p, rfl⟩ := Token.eq_tag_of_unplaced hOpening
    obtain ⟨q, rfl⟩ := Token.eq_tag_of_unplaced hClosing
    rw [loopHeight, Node.loopHeight] at hRoom
    let header : LoopHeader := ⟨item, collection⟩
    refine .loop (not_closes_write header) (standardMeaning_loop hItem hCollection (by omega)) rfl
      ?_ ?_
    · intro written
      refine ihBody hBody hInner ?_
      show pass.loops.length + 1 + loopHeight body ≤ n
      omega
    · intro loop
      refine ihNodes hPrints hRest ?_
      show pass.loops.length + loopHeight nodes ≤ n
      omega

end Pass

/--
**Printing and parsing gives the same trees.** For every nesting limit and all printable trees in
which loops nest no deeper than that, parsing the template that the trees are printed as succeeds,
and gives these trees up to their places.
-/
theorem Parser.parse_print (n : Nat) (nodes : List Node) (hPrints : Printable true nodes)
    (hHeight : loopHeight nodes ≤ n) :
    ∃ nodes', ({ maxLoopNesting := n } : Parser).parseText (print nodes) = .ok nodes' ∧
      unplaced nodes' = unplaced nodes := by
  have hAdds : Pass.Adds n (Token.scan (print nodes)) nodes {} :=
    Pass.adds_tokensOf n nodes hPrints (scan_print hPrints) (by simpa using hHeight)
  obtain ⟨nodes', hNodes, hRun⟩ := hAdds []
  refine ⟨nodes', ?_, hNodes⟩
  rw [List.append_nil] at hRun
  rw [parseText, parse_eq_run, meaning_standard, hRun]
  simp [Pass.run, Pass.finish, Pass.addAll]

set_option maxRecDepth 4000 in
/-- The theorem at a loop of every kind of node, with half of an opening pair at the very end. -/
theorem Parser.parse_print_of_loop :
    let nodes : List Node := [.loop "x" "xs" [.placeholder "x.y" .start, .text "\x7d" .start,
      .inclusion "row" .start] .start, .text "\x7b" .start]
    print nodes = "\x7b\x7bfor x in xs\x7d\x7d\x7b\x7bx.y\x7d\x7d\x7d" ++
      "\x7b\x7binclude:row\x7d\x7d\x7b\x7b/for\x7d\x7d\x7b" ∧
    ∃ nodes', ({ maxLoopNesting := 1 } : Parser).parseText (print nodes) = .ok nodes' ∧
      unplaced nodes' = unplaced nodes := by
  intro nodes
  have hName : Includable "row" := ⟨⟨by decide, by decide⟩, rfl, by decide, by decide⟩
  have hInner : TextPrintable false "\x7d" [.inclusion "row" .start] :=
    ⟨by decide, by decide, by simp, fun h => absurd h (by decide)⟩
  have hLast : TextPrintable true "\x7b" [] :=
    ⟨by decide, by decide, by simp, fun _ => ⟨rfl, rfl⟩⟩
  have hBody : Printable false [.placeholder "x.y" .start, .text "\x7d" .start,
      .inclusion "row" .start] :=
    ⟨⟨by decide, by decide⟩, hInner, hName, trivial⟩
  have hPrints : Printable true nodes := ⟨⟨by decide, by decide, hBody⟩, hLast, trivial⟩
  exact ⟨by decide, Parser.parse_print 1 nodes hPrints (by decide)⟩

end Stencil
