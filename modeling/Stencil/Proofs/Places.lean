import Stencil.Proofs.Cut

/-!
# Stencil — the start of a template by itself

Scanning gives each token its shape and its place, and both can be told without what comes later:
the shape of a token asks little of the tokens after it, and the place of a token is where the one
before it ends. So the tokens that a template starts with are those of the text that they were read
from.

* `Placed` — tokens that stand one right after the other.
* `Placed.eq_of_unplaced` — such tokens are known once their places are forgotten.
* `WellCut.of_append` — the first tokens of a cut are a cut.
* `scan_sourceOf_of_append` — scanning the source of the first tokens gives these tokens.
-/

namespace Stencil

/-- The tokens stand one right after the other, from `p` on. -/
def Placed (p : Position) : List Token → Prop
  | []      => True
  | t :: ts => t.position = p ∧ Placed (p.advance t.source.toList) ts

theorem placed_locate (p : Position) (ps : List Piece) : Placed p (Token.locate p ps) := by
  induction ps generalizing p with
  | nil => trivial
  | cons piece ps ih =>
    have hSource : (Token.ofPiece p piece).source.toList = piece.source := by
      cases piece <;> simp [Token.ofPiece, Token.source, Piece.source]
    rw [Token.locate]
    refine ⟨by cases piece <;> rfl, ?_⟩
    rw [hSource]
    exact ih _

theorem placed_scan (template : String) : Placed .start (Token.scan template) :=
  placed_locate .start _

theorem Placed.of_append {p : Position} {front rest : List Token} (h : Placed p (front ++ rest)) :
    Placed p front := by
  induction front generalizing p with
  | nil => trivial
  | cons t ts ih => exact ⟨h.1, ih h.2⟩

/-- A token is known once its place is. -/
theorem Token.eq_of_unplaced {t u : Token} (hSame : t.unplaced = u.unplaced)
    (hPlace : t.position = u.position) : t = u := by
  cases t <;> cases u <;> simp_all [Token.unplaced, Token.position]

/-- Tokens that stand one right after the other are known once their places are forgotten. -/
theorem Placed.eq_of_unplaced {p : Position} {ts us : List Token} (hts : Placed p ts)
    (hus : Placed p us) (hSame : ts.map Token.unplaced = us.map Token.unplaced) : ts = us := by
  induction ts generalizing p us with
  | nil => exact (List.map_eq_nil_iff.mp hSame.symm).symm
  | cons t ts ih =>
    obtain ⟨u, us, rfl⟩ : ∃ u rest, us = u :: rest := by
      cases us with
      | nil => simp at hSame
      | cons u rest => exact ⟨u, rest, rfl⟩
    rw [List.map_cons, List.map_cons, List.cons.injEq] at hSame
    obtain rfl : t = u := Token.eq_of_unplaced hSame.1 (hts.1.trans hus.1.symm)
    rw [ih hts.2 hus.2 hSame.2]

/-- What comes later is asked of a token only where there is something. -/
theorem Token.Fits.of_append {t : Token} {front rest : List Token} (h : t.Fits (front ++ rest)) :
    t.Fits front := by
  cases t with
  | tag content raw position => exact h
  | text content position =>
    obtain ⟨hNonempty, hPlain, hTail, hEnds, hAdjacent⟩ := h
    refine ⟨hNonempty, hPlain, ?_, ?_, ?_⟩
    · intro hUnclosed
      exact (List.append_eq_nil_iff.mp (hTail hUnclosed)).1
    · intro hMore
      exact hEnds (List.append_ne_nil_of_left_ne_nil hMore rest)
    · rcases front with _ | ⟨_ | _, front⟩
      · trivial
      · -- the text behind is the last token, with or without `rest`
        obtain ⟨hLast, hUnclosed⟩ := hAdjacent
        exact ⟨(List.append_eq_nil_iff.mp hLast).1, hUnclosed⟩
      · trivial

theorem WellCut.of_append {front rest : List Token} (h : WellCut (front ++ rest)) :
    WellCut front := by
  induction front with
  | nil => trivial
  | cons t ts ih => exact ⟨h.1.of_append, ih h.2⟩

/-- **The start of a template is scanned by itself** as it is within the template. -/
theorem scan_sourceOf_of_append {template : String} {front rest : List Token}
    (hScan : Token.scan template = front ++ rest) : Token.scan (sourceOf front) = front := by
  have hCut : WellCut (front ++ rest) := hScan ▸ wellCut_locate_pieces template.toList .start
  have hPlaced : Placed .start (front ++ rest) := hScan ▸ placed_scan template
  refine (placed_scan _).eq_of_unplaced hPlaced.of_append ?_
  rw [Token.scan, map_unplaced_locate, toList_sourceOf]
  exact map_pieces_of_wellCut hCut.of_append

theorem sourceOf_append (front rest : List Token) :
    sourceOf (front ++ rest) = sourceOf front ++ sourceOf rest := by
  rw [← String.toList_inj, String.toList_append, toList_sourceOf, toList_sourceOf, toList_sourceOf,
    List.flatMap_append]

end Stencil
