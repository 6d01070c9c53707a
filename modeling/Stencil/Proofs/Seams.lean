import Stencil.Proofs.Cut

/-!
# Stencil — templates written one after the other

Where two templates meet, the text at the end of the first and the text at the start of the second
become one, and everything after the seam changes its place. Nothing else happens, if the first has
no opening pair that is left open and the seam makes no new one.

* `Token.atoms`, `atomsOf` — tokens in their smallest parts: texts character by character, nothing
  placed. Two templates with the same atoms differ in where they are cut within a text at most.
* `TagsClosed`, `EndsOpening` — every opening pair of a template opens a tag; its last text ends
  with half of an opening pair.
* `atomsOf_append` — the atoms of two templates written one after the other are those of the first
  and then those of the second.
* `scan_tagSource` — the one token of a tag by itself.
-/

namespace Stencil

open Text

/-! ## Searching over a seam -/

/-- A search goes through a text without the pair, and on in what follows. -/
theorem cutPair_append_left {c : Char} {cs : List Char} (ds : List Char) (hPair : ¬ HasPair c cs)
    (hSeam : cs.getLast? = some c → ds.head? ≠ some c) :
    cutPair c (cs ++ ds) = (cutPair c ds).map fun (before, after) => (cs ++ before, after) := by
  induction cs with
  | nil => simp
  | cons a rest ih =>
    cases rest with
    | nil =>
      cases ds with
      | nil => simp [cutPair]
      | cons d ds =>
        have hNoPair : ¬ (a = c ∧ d = c) := by
          rintro ⟨rfl, rfl⟩
          exact hSeam rfl rfl
        simp [cutPair, hNoPair]
    | cons b rest =>
      rw [hasPair_cons_cons, not_or] at hPair
      rw [List.getLast?_cons_cons] at hSeam
      have hTail := ih hPair.2 hSeam
      rw [List.cons_append] at hTail
      simp [cutPair, hPair.1, hTail, Function.comp_def]

theorem getLast?_pair (c : Char) (after : List Char) :
    (c :: c :: after).getLast? = after.getLast?.or (some c) := by
  rw [List.getLast?_cons, List.getLast?_cons]
  cases after.getLast? <;> rfl

/-- A text ends as what a cut of it leaves behind, or with the pair. -/
theorem getLast?_of_cutPair {c : Char} {cs before after : List Char}
    (hCut : cutPair c cs = some (before, after)) :
    cs.getLast? = after.getLast?.or (some c) := by
  rw [append_of_cutPair hCut, List.getLast?_append, getLast?_pair]
  cases after.getLast? <;> rfl

/-! ## Atoms -/

namespace Token

/-- The token in its smallest parts, none of them placed. -/
def atoms : Token → List Token
  | text content _    => content.toList.map fun c => text (String.singleton c) .start
  | tag content raw _ => [tag content raw .start]

end Token

/-- The atoms of a template. -/
def atomsOf (template : String) : List Token :=
  (Token.scan template).flatMap Token.atoms

/-- The atoms of a piece, which do not depend on where it stands. -/
def Piece.atoms (piece : Piece) : List Token :=
  (Token.ofPiece .start piece).atoms

theorem flatMap_atoms_locate (p : Position) (ps : List Piece) :
    (Token.locate p ps).flatMap Token.atoms = ps.flatMap Piece.atoms := by
  induction ps generalizing p with
  | nil => rfl
  | cons piece ps ih =>
    rw [Token.locate, List.flatMap_cons, List.flatMap_cons, ih]
    cases piece <;> rfl

theorem atomsOf_eq (template : String) :
    atomsOf template = (pieces template.toList).flatMap Piece.atoms :=
  flatMap_atoms_locate .start _

theorem atoms_text_append (cs ds : List Char) :
    (Piece.text (cs ++ ds)).atoms = (Piece.text cs).atoms ++ (Piece.text ds).atoms := by
  simp [Piece.atoms, Token.ofPiece, Token.atoms]

theorem flatMap_atoms_ofText (cs : List Char) :
    (Piece.ofText cs).flatMap Piece.atoms = (Piece.text cs).atoms := by
  by_cases hEmpty : cs = []
  · rw [hEmpty]
    rfl
  · rw [ofText_of_ne_nil hEmpty, List.flatMap_singleton]

/-- A text without an opening pair, and no half of one at the seam, comes in front. -/
theorem atoms_pieces_text_append {cs : List Char} (ds : List Char) (hPlain : ¬ HasPair '{' cs)
    (hSeam : cs.getLast? = some '{' → ds.head? ≠ some '{') :
    (pieces (cs ++ ds)).flatMap Piece.atoms =
      (Piece.text cs).atoms ++ (pieces ds).flatMap Piece.atoms := by
  rw [pieces_eq (cs ++ ds), pieces_eq ds, cutPair_append_left ds hPlain hSeam]
  cases cutPair '{' ds with
  | none =>
    simp only [Option.map_none]
    rw [flatMap_atoms_ofText, flatMap_atoms_ofText, atoms_text_append]
  | some cut =>
    obtain ⟨before, rest⟩ := cut
    simp only [Option.map_some]
    -- whatever becomes of the tag, the text in front of it has grown by `cs`
    cases cutPair '}' rest <;>
      simp only [List.flatMap_append, flatMap_atoms_ofText, atoms_text_append, List.append_assoc]

/-- The pieces of a text in which every opening pair opens a tag come in front. -/
theorem atoms_pieces_append {cs : List Char} (ds : List Char)
    (hPlain : ∀ text, Piece.text text ∈ pieces cs → ¬ HasPair '{' text)
    (hSeam : cs.getLast? = some '{' → ds.head? ≠ some '{') :
    (pieces (cs ++ ds)).flatMap Piece.atoms =
      (pieces cs).flatMap Piece.atoms ++ (pieces ds).flatMap Piece.atoms := by
  fun_induction pieces cs with
  | case1 cs hOpened =>
    rw [flatMap_atoms_ofText]
    exact atoms_pieces_text_append ds (cutPair_eq_none_iff.mp hOpened) hSeam
  | case2 cs before rest hOpened hClosed =>
    -- the unclosed tail is a text with an opening pair
    have hTail := hPlain ('{' :: '{' :: rest) (by simp)
    exact absurd (hasPair_cons_cons.mpr (.inl ⟨rfl, rfl⟩)) hTail
  | case3 cs before rest hOpened inner after hClosed ih =>
    obtain ⟨hText, hBefore, hLast⟩ := cutPair_eq_some_iff.mp hOpened
    obtain ⟨hRest, hInner, hEnd⟩ := cutPair_eq_some_iff.mp hClosed
    have hAfter := ih (fun text hMem => hPlain text (by simp [hMem])) ?_
    · have hTag := pieces_tag before (after ++ ds) hBefore hLast hInner hEnd
      have hSource : cs ++ ds = before ++ ((Piece.tag inner).source ++ (after ++ ds)) := by
        simp [hText, hRest, Piece.source]
      rw [hSource, hTag]
      simp only [List.flatMap_append, List.flatMap_cons, hAfter, List.append_assoc]
    · -- the seam is that of the text after the tag
      intro hHalf
      refine hSeam ?_
      rw [getLast?_of_cutPair hOpened, getLast?_of_cutPair hClosed, hHalf]
      rfl

/-! ## Templates that end well -/

/-- Every opening pair of the template opens a tag: no text holds one. -/
def TagsClosed (template : String) : Prop :=
  ∀ content position, Token.text content position ∈ Token.scan template →
    ¬ HasPair '{' content.toList

/-- The last token is a text that ends with half of an opening pair. -/
def EndsOpening (template : String) : Prop :=
  ∃ content position, (Token.scan template).getLast? = some (.text content position) ∧
    content.toList.getLast? = some '{'

theorem mem_locate_text {cs : List Char} {ps : List Piece} (hMem : Piece.text cs ∈ ps)
    (p : Position) : ∃ q, Token.text (String.ofList cs) q ∈ Token.locate p ps := by
  induction ps generalizing p with
  | nil => cases hMem
  | cons piece ps ih =>
    rw [Token.locate]
    rcases List.mem_cons.mp hMem with rfl | hMem
    · exact ⟨p, List.mem_cons_self⟩
    · obtain ⟨q, hLocated⟩ := ih hMem (p.advance piece.source)
      exact ⟨q, List.mem_cons_of_mem _ hLocated⟩

theorem getLast?_locate {piece : Piece} {ps : List Piece} (hLast : ps.getLast? = some piece)
    (p : Position) : ∃ q, (Token.locate p ps).getLast? = some (Token.ofPiece q piece) := by
  induction ps generalizing p with
  | nil => cases hLast
  | cons first ps ih =>
    cases ps with
    | nil =>
      obtain rfl : first = piece := by simpa using hLast
      exact ⟨p, rfl⟩
    | cons second ps =>
      rw [List.getLast?_cons_cons] at hLast
      obtain ⟨q, hLocated⟩ := ih hLast (p.advance first.source)
      refine ⟨q, ?_⟩
      rw [Token.locate, Token.locate, List.getLast?_cons_cons]
      exact hLocated

/-- Only a text can end with an opening brace. -/
theorem getLast?_pieces {cs : List Char} (hHalf : cs.getLast? = some '{') :
    ∃ text, (pieces cs).getLast? = some (.text text) ∧ text.getLast? = some '{' := by
  fun_induction pieces cs with
  | case1 cs hOpened =>
    have hSome : cs ≠ [] := by
      rintro rfl
      cases hHalf
    exact ⟨cs, by rw [ofText_of_ne_nil hSome]; rfl, hHalf⟩
  | case2 cs before rest hOpened hClosed =>
    refine ⟨'{' :: '{' :: rest, by simp, ?_⟩
    rwa [getLast?_of_cutPair hOpened, ← getLast?_pair] at hHalf
  | case3 cs before rest hOpened inner after hClosed ih =>
    have hAfter : after.getLast? = some '{' := by
      rw [getLast?_of_cutPair hOpened, getLast?_of_cutPair hClosed] at hHalf
      cases hEnd : after.getLast? with
      | none => simp [hEnd] at hHalf
      | some c => simpa [hEnd] using hHalf
    obtain ⟨text, hLast, hEnds⟩ := ih hAfter
    refine ⟨text, ?_, hEnds⟩
    rw [List.getLast?_append, List.getLast?_cons, hLast]
    rfl

theorem endsOpening_of_getLast? {template : String}
    (hHalf : template.toList.getLast? = some '{') : EndsOpening template := by
  obtain ⟨text, hLast, hEnds⟩ := getLast?_pieces hHalf
  obtain ⟨q, hLocated⟩ := getLast?_locate hLast .start
  exact ⟨String.ofList text, q, hLocated, by rwa [String.toList_ofList]⟩

/--
**The atoms of one template, then those of the other.** Every opening pair of the first opens a tag,
and no opening pair is made of one brace on either side of the seam.
-/
theorem atomsOf_append {s₁ s₂ : String} (hClosed : TagsClosed s₁)
    (hSeam : EndsOpening s₁ → s₂.toList.head? ≠ some '{') :
    atomsOf (s₁ ++ s₂) = atomsOf s₁ ++ atomsOf s₂ := by
  rw [atomsOf_eq, atomsOf_eq, atomsOf_eq, String.toList_append]
  refine atoms_pieces_append _ ?_ fun hHalf => hSeam (endsOpening_of_getLast? hHalf)
  intro text hMem
  obtain ⟨q, hLocated⟩ := mem_locate_text hMem .start
  simpa using hClosed _ q hLocated

/-! ## A tag by itself -/

theorem scan_tagSource {inner : String} (hInner : ¬ HasPair '}' inner.toList)
    (hEnd : inner.toList.getLast? ≠ some '}') :
    Token.scan (tagSource inner) =
      [.tag (String.ofList (trim inner.toList)) (tagSource inner) .start] := by
  have hSource : (tagSource inner).toList = (Piece.tag inner.toList).source := by
    rw [← String.toList_ofList (l := (Piece.tag inner.toList).source), ofList_source_tag,
      String.ofList_toList]
  rw [Token.scan, hSource, pieces_source_tag hInner hEnd, Token.locate, Token.ofPiece,
    ofList_source_tag, String.ofList_toList]
  rfl

theorem TagFits.scan {content : String} (h : TagFits content (tagSource content)) :
    Token.scan (tagSource content) = [.tag content (tagSource content) .start] := by
  obtain ⟨inner, hRaw, hInner, hEnd, hTrim⟩ := h
  rw [hRaw, scan_tagSource hInner hEnd, ← hTrim]

end Stencil
