import Stencil.Text.Split

/-!
# Stencil — the pieces of a template

A template is cut into literal text and tags before anything else is known about it. A tag opens at
the first pair of opening braces and closes at the first pair of closing braces after it. An opening
pair that is never closed opens nothing: from it on, the rest of the template is one last text.

* `pieces`       — the cut.
* `Piece.source` — a piece as it was written; nothing is lost (`flatMap_source_pieces`).
-/

namespace Stencil

open Text

/-- A part of a template, before positions and trimming. -/
inductive Piece where
  | text (chars : List Char)
  | tag  (inner : List Char)
  deriving DecidableEq, Repr

namespace Piece

/-- The piece as it stands in the template, the braces of a tag included. -/
def source : Piece → List Char
  | text chars => chars
  | tag inner  => '{' :: '{' :: (inner ++ ['}', '}'])

/-- The text piece of `cs`, when there is any text. -/
def ofText (cs : List Char) : List Piece :=
  if cs.isEmpty then [] else [text cs]

theorem flatMap_source_ofText (cs : List Char) : (ofText cs).flatMap source = cs := by
  cases cs <;> simp [ofText, source]

end Piece

/-- The pieces of a template, in order. -/
def pieces (cs : List Char) : List Piece :=
  match _opened : cutPair '{' cs with
  | none => Piece.ofText cs
  | some (before, rest) =>
    match _closed : cutPair '}' rest with
    | none => Piece.ofText before ++ [.text ('{' :: '{' :: rest)]
    | some (inner, after) => Piece.ofText before ++ .tag inner :: pieces after
termination_by cs.length
decreasing_by
  have h₁ := length_lt_of_cutPair _opened
  have h₂ := length_lt_of_cutPair _closed
  omega

/-- The pieces of a template, written one after the other, are the template. -/
theorem flatMap_source_pieces (cs : List Char) : (pieces cs).flatMap Piece.source = cs := by
  fun_induction pieces cs with
  | case1 cs opened => exact Piece.flatMap_source_ofText cs
  | case2 cs before rest opened closed =>
    rw [append_of_cutPair opened]
    simp [Piece.flatMap_source_ofText, Piece.source]
  | case3 cs before rest opened inner after closed ih =>
    rw [append_of_cutPair opened, append_of_cutPair closed]
    simp [Piece.flatMap_source_ofText, Piece.source, ih]

end Stencil
