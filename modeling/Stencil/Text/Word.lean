import Stencil.Text.WordRanges

/-!
# Stencil — word characters

A name in a tag is made of word characters: letters, marks, decimal digits, connector punctuation
and the two join controls of any script. Letter case and normal forms are never touched, so two
names are the same only when they are the same characters.
-/

namespace Stencil.Text

/-- Whether `c` may stand in a name. -/
def isWord (c : Char) : Bool :=
  wordRanges.any fun (low, high) => decide (low ≤ c.toNat) && decide (c.toNat ≤ high)

/-- A non-empty run of word characters. -/
def isName (cs : List Char) : Bool :=
  !cs.isEmpty && cs.all isWord

end Stencil.Text
