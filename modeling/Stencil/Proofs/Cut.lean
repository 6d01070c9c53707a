import Stencil.Token

/-!
# Stencil — the one cut of a template

A template is cut by searching for the first opening pair, then for the first closing pair after it.
This module says what a cut looks like without searching, and proves that each template has exactly
one such cut:

* `cutPair_eq_some_iff` — a search stops at a pair exactly when the text before it neither holds the
  pair nor ends with half of it.
* `WellCut` — the shape of a cut: what a text and what a tag may look like, given the tokens after
  it.
* `scan_is_the_only_cut` — scanning loses nothing and gives a well-cut list of tokens, and any
  well-cut list of tokens comes back from its own source.

Half pairs are where a search could go wrong: in an opening run of three braces the tag starts at
the first two of them, and in a closing run it ends after the first two. So a text in front of a
token never ends with an opening brace, and the inside of a tag never ends with a closing one.
-/

namespace Stencil

open Text

/-! ## Searching for a pair -/

/-- `c` stands twice in a row somewhere in `cs`. -/
def HasPair (c : Char) (cs : List Char) : Prop :=
  [c, c] <:+: cs

instance (c : Char) (cs : List Char) : Decidable (HasPair c cs) :=
  inferInstanceAs (Decidable ([c, c] <:+: cs))

theorem not_hasPair_nil (c : Char) : ¬ HasPair c [] := by
  simp [HasPair]

theorem not_hasPair_singleton (c a : Char) : ¬ HasPair c [a] := by
  intro hPair
  have hLength := List.IsInfix.length_le hPair
  simp at hLength

/-- A pair stands at the head of a text or further on. -/
theorem hasPair_cons_cons {c a b : Char} {cs : List Char} :
    HasPair c (a :: b :: cs) ↔ (a = c ∧ b = c) ∨ HasPair c (b :: cs) := by
  unfold HasPair
  rw [List.infix_cons_iff, List.cons_prefix_cons, List.cons_prefix_cons]
  simp [eq_comm]

/-- No cut is found exactly when there is no pair. -/
theorem cutPair_eq_none_iff {c : Char} {cs : List Char} :
    cutPair c cs = none ↔ ¬ HasPair c cs := by
  fun_induction cutPair c cs with
  | case1 => simp [not_hasPair_nil]
  | case2 a => simp [not_hasPair_singleton]
  | case3 a b rest hab => simp [hasPair_cons_cons, hab]
  | case4 a b rest hab ih =>
    rw [Option.map_eq_none_iff, ih, hasPair_cons_cons]
    simp [hab]

/-- A text without a pair that does not end with half of one is what a search leaves behind. -/
theorem cutPair_append {c : Char} {before : List Char} (after : List Char)
    (hPair : ¬ HasPair c before) (hLast : before.getLast? ≠ some c) :
    cutPair c (before ++ c :: c :: after) = some (before, after) := by
  induction before with
  | nil => simp [cutPair]
  | cons a rest ih =>
    cases rest with
    | nil =>
      have ha : a ≠ c := by
        intro h
        simp [h] at hLast
      simp [cutPair, ha]
    | cons b rest =>
      -- `a` and `b` are no pair, so the search goes on in the tail
      rw [hasPair_cons_cons, not_or] at hPair
      rw [List.getLast?_cons_cons] at hLast
      have hTail := ih hPair.2 hLast
      rw [List.cons_append] at hTail
      simp [cutPair, hPair.1, hTail]

/-- What a search leaves behind has no pair in it. -/
theorem not_hasPair_of_cutPair {c : Char} {cs before after : List Char}
    (hCut : cutPair c cs = some (before, after)) :
    ¬ HasPair c before ∧ before.getLast? ≠ some c := by
  fun_induction cutPair c cs generalizing before after with
  | case1 => simp at hCut
  | case2 => simp at hCut
  | case3 a b rest hab =>
    simp only [Option.some.injEq, Prod.mk.injEq] at hCut
    obtain ⟨rfl, -⟩ := hCut
    simp [not_hasPair_nil]
  | case4 a b rest hab ih =>
    simp only [Option.map_eq_some_iff, Prod.mk.injEq, Prod.exists] at hCut
    obtain ⟨before', after', hTail, rfl, rfl⟩ := hCut
    obtain ⟨hPair, hLast⟩ := ih hTail
    have hText := append_of_cutPair hTail
    cases before' with
    | nil =>
      -- the pair follows at once, so `a` cannot be its first half
      have hb : b = c := by simpa using congrArg List.head? hText
      refine ⟨not_hasPair_singleton c a, ?_⟩
      intro ha
      simp only [List.getLast?_singleton, Option.some.injEq] at ha
      exact hab ⟨ha, hb⟩
    | cons x rest' =>
      -- `b` was left behind as well, and what holds of it holds of the tail
      have hb : b = x := by simpa using congrArg List.head? hText
      rw [hasPair_cons_cons, not_or, List.getLast?_cons_cons]
      exact ⟨⟨fun h => hab ⟨h.1, hb.trans h.2⟩, hPair⟩, hLast⟩

/-- **A search stops at the first pair.** -/
theorem cutPair_eq_some_iff {c : Char} {cs before after : List Char} :
    cutPair c cs = some (before, after) ↔
      cs = before ++ c :: c :: after ∧ ¬ HasPair c before ∧ before.getLast? ≠ some c := by
  constructor
  · intro hCut
    exact ⟨append_of_cutPair hCut, not_hasPair_of_cutPair hCut⟩
  · rintro ⟨rfl, hPair, hLast⟩
    exact cutPair_append after hPair hLast

/-! ## The pieces of a text of known shape -/

/-- The cut, one piece or two at a time. -/
theorem pieces_eq (cs : List Char) :
    pieces cs =
      match cutPair '{' cs with
      | none => Piece.ofText cs
      | some (before, rest) =>
        match cutPair '}' rest with
        | none => Piece.ofText before ++ [.text ('{' :: '{' :: rest)]
        | some (inner, after) => Piece.ofText before ++ .tag inner :: pieces after := by
  rw [pieces]
  split
  · next hOpened => rw [hOpened]
  · next before rest hOpened =>
    simp only [hOpened]
    split
    · next hClosed => rw [hClosed]
    · next inner after hClosed => rw [hClosed]

/-- A text without an opening pair is one piece, or none when it is empty. -/
theorem pieces_of_not_hasPair {cs : List Char} (hPlain : ¬ HasPair '{' cs) :
    pieces cs = Piece.ofText cs := by
  rw [pieces_eq, cutPair_eq_none_iff.mpr hPlain]

/-- An opening pair without a closing one starts the last piece. -/
theorem pieces_unclosed (before : List Char) {rest : List Char}
    (hPlain : ¬ HasPair '{' before) (hLast : before.getLast? ≠ some '{')
    (hOpen : ¬ HasPair '}' rest) :
    pieces (before ++ '{' :: '{' :: rest) =
      Piece.ofText before ++ [.text ('{' :: '{' :: rest)] := by
  rw [pieces_eq, cutPair_append rest hPlain hLast]
  simp only [cutPair_eq_none_iff.mpr hOpen]

/-- A closed tag is a piece, and the cut goes on after it. -/
theorem pieces_tag (before : List Char) {inner : List Char} (after : List Char)
    (hPlain : ¬ HasPair '{' before) (hLast : before.getLast? ≠ some '{')
    (hInner : ¬ HasPair '}' inner) (hEnd : inner.getLast? ≠ some '}') :
    pieces (before ++ ((Piece.tag inner).source ++ after)) =
      Piece.ofText before ++ .tag inner :: pieces after := by
  have hSource : (Piece.tag inner).source ++ after =
      '{' :: '{' :: (inner ++ '}' :: '}' :: after) := by simp [Piece.source]
  rw [hSource, pieces_eq, cutPair_append _ hPlain hLast]
  simp only [cutPair_append after hInner hEnd]

/-- A tag by itself is one piece. -/
theorem pieces_source_tag {inner : List Char} (hInner : ¬ HasPair '}' inner)
    (hEnd : inner.getLast? ≠ some '}') : pieces (Piece.tag inner).source = [.tag inner] := by
  have hTag := pieces_tag [] [] (not_hasPair_nil _) (by simp) hInner hEnd
  rw [pieces_of_not_hasPair (not_hasPair_nil _), List.nil_append, List.append_nil] at hTag
  exact hTag

/-! ## The shape of a cut -/

/-- An opening pair that is never closed, with all that follows it. -/
def Unclosed (cs : List Char) : Prop :=
  ∃ rest, cs = '{' :: '{' :: rest ∧ ¬ HasPair '}' rest

/-- Of texts, only an unclosed tail stands right after a text, and it is the last token. -/
def MayFollowText : List Token → Prop
  | .text content _ :: rest => rest = [] ∧ Unclosed content.toList
  | _                       => True

/-- What a literal text is like in front of the tokens `after`. -/
structure TextFits (cs : List Char) (after : List Token) : Prop where
  nonempty : cs ≠ []
  /-- Only an unclosed tail has an opening pair in it. -/
  plain    : ¬ Unclosed cs → ¬ HasPair '{' cs
  /-- Nothing follows an unclosed tail. -/
  tail     : Unclosed cs → after = []
  /-- The text does not end with half of the pair that opens the next token. -/
  ends     : after ≠ [] → cs.getLast? ≠ some '{'
  adjacent : MayFollowText after

/-- What a tag is like: its braces around an inside that holds no closing pair and does not end with
half of one, and the trimmed inside as its content. -/
def TagFits (content raw : String) : Prop :=
  ∃ inner : String, raw = tagSource inner ∧ ¬ HasPair '}' inner.toList ∧
    inner.toList.getLast? ≠ some '}' ∧ content = String.ofList (trim inner.toList)

/-- The token is what its kind has to be in front of the tokens `after`. -/
def Token.Fits (after : List Token) : Token → Prop
  | .text content _    => TextFits content.toList after
  | .tag content raw _ => TagFits content raw

/-- Every token is what its kind has to be in front of the tokens after it. -/
def WellCut : List Token → Prop
  | []      => True
  | t :: ts => t.Fits ts ∧ WellCut ts

/-- The token with its place forgotten: its kind, its content and how it was written. -/
def Token.unplaced : Token → Token
  | .text content _    => .text content .start
  | .tag content raw _ => .tag content raw .start

/-! ## Scanning gives a cut -/

theorem ofText_of_ne_nil {cs : List Char} (h : cs ≠ []) : Piece.ofText cs = [.text cs] := by
  simp [Piece.ofText, h]

theorem not_unclosed_of_not_hasPair {cs : List Char} (hPlain : ¬ HasPair '{' cs) :
    ¬ Unclosed cs := by
  rintro ⟨rest, rfl, -⟩
  exact hPlain (hasPair_cons_cons.mpr (Or.inl ⟨rfl, rfl⟩))

theorem ofList_source_tag (inner : List Char) :
    String.ofList (Piece.tag inner).source = tagSource (String.ofList inner) := by
  rw [← String.toList_inj]
  simp [Piece.source, tagSource]

/-- A closed tag is scanned as a tag that fits, wherever it stands. -/
theorem fits_ofPiece_tag {inner : List Char} (hInner : ¬ HasPair '}' inner)
    (hEnd : inner.getLast? ≠ some '}') (p : Position) (after : List Token) :
    (Token.ofPiece p (.tag inner)).Fits after := by
  refine ⟨String.ofList inner, ofList_source_tag inner, ?_, ?_, ?_⟩
  · simpa using hInner
  · simpa using hEnd
  · rw [String.toList_ofList]

/-- A literal text may be put before well-cut tokens, if it does not run into them. -/
theorem wellCut_locate_ofText {before : List Char} (ps : List Piece)
    (hPlain : ¬ HasPair '{' before) (hLast : ps ≠ [] → before.getLast? ≠ some '{')
    (hNext : ∀ cs rest, ps = .text cs :: rest → rest = [] ∧ Unclosed cs)
    (hCut : ∀ p, WellCut (Token.locate p ps)) (p : Position) :
    WellCut (Token.locate p (Piece.ofText before ++ ps)) := by
  by_cases hEmpty : before = []
  · rw [hEmpty]
    exact hCut p
  · rw [ofText_of_ne_nil hEmpty, List.singleton_append, Token.locate]
    refine ⟨?_, hCut _⟩
    constructor
    case nonempty => rwa [String.toList_ofList]
    case plain => rw [String.toList_ofList]; exact fun _ => hPlain
    case tail =>
      intro hTail
      exact absurd (by simpa using hTail) (not_unclosed_of_not_hasPair hPlain)
    case ends =>
      intro hMore
      have hps : ps ≠ [] := by
        rintro rfl
        exact hMore rfl
      simpa using hLast hps
    case adjacent =>
      cases ps with
      | nil => trivial
      | cons piece ps =>
        cases piece with
        | tag inner => trivial
        | text cs =>
          obtain ⟨rfl, hTail⟩ := hNext cs ps rfl
          exact ⟨rfl, by simpa using hTail⟩

/-- The pieces of a text, located anywhere, are well cut. -/
theorem wellCut_locate_pieces (cs : List Char) :
    ∀ p, WellCut (Token.locate p (pieces cs)) := by
  fun_induction pieces cs with
  | case1 cs hOpened =>
    -- no tag opens: one text, if there is any
    intro p
    have hPlain := cutPair_eq_none_iff.mp hOpened
    have hCut := wellCut_locate_ofText [] hPlain (by simp) (by simp) (fun _ => trivial) p
    rwa [List.append_nil] at hCut
  | case2 cs before rest hOpened hClosed =>
    -- a tag opens and never closes: the tail is the last token
    obtain ⟨hPlain, hLast⟩ := not_hasPair_of_cutPair hOpened
    have hTail : Unclosed ('{' :: '{' :: rest) := ⟨rest, rfl, cutPair_eq_none_iff.mp hClosed⟩
    refine wellCut_locate_ofText _ hPlain (fun _ => hLast) ?_ ?_
    · intro cs more h
      simp only [List.cons.injEq, Piece.text.injEq] at h
      obtain ⟨rfl, rfl⟩ := h
      exact ⟨rfl, hTail⟩
    · intro p
      refine ⟨?_, trivial⟩
      constructor
      case nonempty => simp
      case plain => exact fun h => absurd (by simpa using hTail) h
      case tail => exact fun _ => rfl
      case ends => exact fun h => absurd rfl h
      case adjacent => trivial
  | case3 cs before rest hOpened inner after hClosed ih =>
    -- a tag, and the pieces of what comes after it
    obtain ⟨hPlain, hLast⟩ := not_hasPair_of_cutPair hOpened
    obtain ⟨hInner, hEnd⟩ := not_hasPair_of_cutPair hClosed
    refine wellCut_locate_ofText _ hPlain (fun _ => hLast) (by simp) ?_
    intro p
    exact ⟨fits_ofPiece_tag hInner hEnd p _, ih _⟩

/-! ## A cut is what scanning gives -/

theorem toList_join (strings : List String) :
    (String.join strings).toList = strings.flatMap String.toList := by
  induction strings with
  | nil => rfl
  | cons s rest ih => simp [String.join_cons, ih]

theorem toList_sourceOf (tokens : List Token) :
    (sourceOf tokens).toList = tokens.flatMap fun t => t.source.toList := by
  rw [sourceOf, toList_join, List.flatMap_map]

/-- Located pieces are written as the pieces are. -/
theorem flatMap_source_locate (p : Position) (ps : List Piece) :
    ((Token.locate p ps).flatMap fun t => t.source.toList) = ps.flatMap Piece.source := by
  induction ps generalizing p with
  | nil => rfl
  | cons piece ps ih =>
    rw [Token.locate, List.flatMap_cons, List.flatMap_cons, ih]
    cases piece <;> simp [Token.ofPiece, Token.source, Piece.source]

/-- Scanning loses nothing. -/
theorem sourceOf_scan (template : String) : sourceOf (Token.scan template) = template := by
  rw [← String.toList_inj, toList_sourceOf, Token.scan, flatMap_source_locate,
    flatMap_source_pieces]

/-- Forgetting places undoes locating. -/
theorem map_unplaced_locate (p : Position) (ps : List Piece) :
    (Token.locate p ps).map Token.unplaced = ps.map (Token.ofPiece .start) := by
  induction ps generalizing p with
  | nil => rfl
  | cons piece ps ih =>
    rw [Token.locate, List.map_cons, List.map_cons, ih]
    cases piece <;> rfl

/-- The pieces of a literal text and a tag that fits, read before anything. -/
theorem map_pieces_tag (before : List Char) {content raw : String} (after : List Char)
    (hPlain : ¬ HasPair '{' before) (hLast : before.getLast? ≠ some '{')
    (hTag : TagFits content raw) :
    (pieces (before ++ (raw.toList ++ after))).map (Token.ofPiece .start) =
      (Piece.ofText before).map (Token.ofPiece .start) ++
        .tag content raw .start :: (pieces after).map (Token.ofPiece .start) := by
  obtain ⟨inner, rfl, hInner, hEnd, rfl⟩ := hTag
  have hRaw : (tagSource inner).toList = (Piece.tag inner.toList).source := by
    rw [← String.ofList_toList (s := inner), ← ofList_source_tag]
    simp
  rw [hRaw, pieces_tag before after hPlain hLast hInner hEnd, List.map_append, List.map_cons]
  simp [Token.ofPiece, ofList_source_tag]

/-- A text with a token after it is no unclosed tail. -/
theorem TextFits.not_unclosed {cs : List Char} {t : Token} {ts : List Token}
    (hFits : TextFits cs (t :: ts)) : ¬ Unclosed cs := by
  intro hTail
  simpa using hFits.tail hTail

/-- Well-cut tokens come back from the text that they were written as. -/
theorem map_pieces_of_wellCut : ∀ {tokens : List Token}, WellCut tokens →
    (pieces (tokens.flatMap fun t => t.source.toList)).map (Token.ofPiece .start) =
      tokens.map Token.unplaced
  | [], _ => by
    rw [List.flatMap_nil, pieces_of_not_hasPair (not_hasPair_nil _)]
    rfl
  | .tag content raw p :: ts, hCut => by
    -- the tag is found at once, with no text in front of it
    have hRest := map_pieces_of_wellCut hCut.2
    have hTag := map_pieces_tag [] (ts.flatMap fun t => t.source.toList)
      (not_hasPair_nil _) (by simp) hCut.1
    rw [hRest] at hTag
    exact hTag
  | [.text content p], hCut => by
    -- the last text: plain to its end, or an unclosed tail
    have hFits : TextFits content.toList [] := hCut.1
    by_cases hTail : Unclosed content.toList
    · obtain ⟨rest, hRest, hOpen⟩ := hTail
      have hPieces := pieces_unclosed [] (not_hasPair_nil _) (by simp) hOpen
      rw [List.nil_append, ← hRest] at hPieces
      simp [Token.source, hPieces, Piece.ofText, Token.ofPiece, Token.unplaced]
    · have hPieces := pieces_of_not_hasPair (hFits.plain hTail)
      simp [Token.source, hPieces, ofText_of_ne_nil hFits.nonempty, Token.ofPiece, Token.unplaced]
  | .text content p :: .tag content' raw q :: ts, hCut => by
    -- the text ends where the tag opens, since it does not end with half of the pair
    have hFits : TextFits content.toList (.tag content' raw q :: ts) := hCut.1
    have hRest := map_pieces_of_wellCut hCut.2.2
    have hTag := map_pieces_tag content.toList (ts.flatMap fun t => t.source.toList)
      (hFits.plain hFits.not_unclosed) (hFits.ends (by simp)) hCut.2.1
    rw [hRest, ofText_of_ne_nil hFits.nonempty] at hTag
    simpa [Token.source, Token.ofPiece, Token.unplaced] using hTag
  | .text content p :: .text content' q :: ts, hCut => by
    -- two texts in a row: the second is the tail, and the last token
    have hFits : TextFits content.toList (.text content' q :: ts) := hCut.1
    obtain ⟨rfl, rest, hRest, hOpen⟩ := hFits.adjacent
    have hPieces := pieces_unclosed content.toList (hFits.plain hFits.not_unclosed)
      (hFits.ends (by simp)) hOpen
    rw [← hRest, ofText_of_ne_nil hFits.nonempty] at hPieces
    simp [Token.source, hPieces, Token.ofPiece, Token.unplaced]

/--
**Every template has exactly one cut, and scanning finds it.** The tokens of a template, written one
after the other, are the template, and each of them has the shape that its kind asks for in front of
the tokens after it. And any tokens of that shape come back, content and raw text alike, when what
they were written as is scanned. -/
theorem scan_is_the_only_cut :
    (∀ template : String, sourceOf (Token.scan template) = template ∧
      WellCut (Token.scan template)) ∧
    ∀ tokens : List Token, WellCut tokens →
      (Token.scan (sourceOf tokens)).map Token.unplaced = tokens.map Token.unplaced := by
  refine ⟨?_, ?_⟩
  · intro template
    exact ⟨sourceOf_scan template, wellCut_locate_pieces template.toList .start⟩
  · intro tokens hCut
    rw [Token.scan, map_unplaced_locate, toList_sourceOf]
    exact map_pieces_of_wellCut hCut

/-- The theorem at a tag that opens after a third brace and closes before one, and an unclosed
tail. -/
theorem scan_is_the_only_cut_at_odd_braces :
    WellCut [.text "a" .start, .tag "\x7b b" "\x7b\x7b\x7b b \x7d\x7d" .start,
      .text "\x7d" .start, .text "\x7b\x7bc\x7d" .start] ∧
    (Token.scan "a\x7b\x7b\x7b b \x7d\x7d\x7d\x7b\x7bc\x7d").map Token.unplaced =
      [.text "a" .start, .tag "\x7b b" "\x7b\x7b\x7b b \x7d\x7d" .start,
        .text "\x7d" .start, .text "\x7b\x7bc\x7d" .start] := by
  have hTail : Unclosed "\x7b\x7bc\x7d".toList := ⟨['c', '\x7d'], by decide, by decide⟩
  have hCut : WellCut [.text "a" .start, .tag "\x7b b" "\x7b\x7b\x7b b \x7d\x7d" .start,
      .text "\x7d" .start, .text "\x7b\x7bc\x7d" .start] := by
    refine ⟨?_, ?_, ?_, ?_, trivial⟩
    · have hPlain : ¬ Unclosed "a".toList := not_unclosed_of_not_hasPair (by decide)
      exact ⟨by decide, fun _ => by decide, fun h => absurd h hPlain, fun _ => by decide, trivial⟩
    · exact ⟨"\x7b b ", by decide, by decide, by decide, by decide⟩
    · have hPlain : ¬ Unclosed "\x7d".toList := not_unclosed_of_not_hasPair (by decide)
      exact ⟨by decide, fun _ => by decide, fun h => absurd h hPlain, fun _ => by decide, rfl,
        hTail⟩
    · exact ⟨by decide, fun h => absurd hTail h, fun _ => rfl, fun h => absurd rfl h, trivial⟩
  exact ⟨hCut, scan_is_the_only_cut.2 _ hCut⟩

end Stencil
