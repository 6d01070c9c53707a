/-!
# Stencil — cutting text

Two ways to cut a list of characters:

* `segments p` — at every character in the class `p`, as in `a.b.c` or `dir/file`. There is always
  a first segment, so the result is that segment and the list of the others.
* `cutPair c`  — at the first place where `c` stands twice in a row, as in an opening `{`-pair.
-/

namespace Stencil.Text

/-- The segments of `cs` between characters of the class `p`: the first one and the others. -/
def segments (p : Char → Bool) : List Char → List Char × List (List Char)
  | [] => ([], [])
  | c :: cs =>
    let (first, others) := segments p cs
    if p c then ([], first :: others) else (c :: first, others)

/-- All segments as one list, which is never empty. -/
def segmentList (p : Char → Bool) (cs : List Char) : List (List Char) :=
  (segments p cs).1 :: (segments p cs).2

/-- The text before the first `cc` and the text after it, or nothing when `c` never stands twice
in a row. -/
def cutPair (c : Char) : List Char → Option (List Char × List Char)
  | [] => none
  | [_] => none
  | a :: b :: rest =>
    if a = c ∧ b = c then some ([], rest)
    else (cutPair c (b :: rest)).map fun (before, after) => (a :: before, after)

/-- A cut loses exactly the pair. -/
theorem append_of_cutPair {c : Char} {cs before after : List Char}
    (h : cutPair c cs = some (before, after)) : cs = before ++ c :: c :: after := by
  fun_induction cutPair c cs generalizing before after with
  | case1 => simp at h
  | case2 => simp at h
  | case3 a b rest hab =>
    obtain ⟨rfl, rfl⟩ := hab
    simp only [Option.some.injEq, Prod.mk.injEq] at h
    obtain ⟨rfl, rfl⟩ := h
    rfl
  | case4 a b rest hab ih =>
    simp only [Option.map_eq_some_iff, Prod.mk.injEq, Prod.exists] at h
    obtain ⟨before', after', hcut, rfl, rfl⟩ := h
    simp [ih hcut]

/-- What follows a cut is shorter than the text by at least the pair. -/
theorem length_lt_of_cutPair {c : Char} {cs before after : List Char}
    (h : cutPair c cs = some (before, after)) : after.length + 1 < cs.length := by
  rw [append_of_cutPair h]
  simp only [List.length_append, List.length_cons]
  omega

end Stencil.Text
