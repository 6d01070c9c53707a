/-!
# Stencil — source positions

Lines and columns are counted from one. A column counts characters, and only a line feed ends a
line, so a carriage return takes a column of its own.
-/

namespace Stencil

/-- A place in a template, by line and column. -/
structure Position where
  line   : Nat
  column : Nat
  deriving DecidableEq, Repr

namespace Position

/-- The place of the first character of a template. -/
def start : Position := ⟨1, 1⟩

instance : Inhabited Position := ⟨start⟩

/-- The place just after the character `c` that stands at `p`. -/
def next (p : Position) (c : Char) : Position :=
  if c = '\n' then ⟨p.line + 1, 1⟩ else ⟨p.line, p.column + 1⟩

/-- The place just after the text `cs` that starts at `p`. -/
def advance (p : Position) (cs : List Char) : Position :=
  cs.foldl next p

@[simp] theorem advance_nil (p : Position) : p.advance [] = p := rfl

@[simp] theorem advance_cons (p : Position) (c : Char) (cs : List Char) :
    p.advance (c :: cs) = (p.next c).advance cs := rfl

/-- Advancing over two texts is advancing over one after the other. -/
theorem advance_append (p : Position) (cs ds : List Char) :
    p.advance (cs ++ ds) = (p.advance cs).advance ds := by
  simp [advance]

end Position

end Stencil
