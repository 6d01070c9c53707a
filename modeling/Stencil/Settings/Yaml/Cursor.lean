/-!
# Stencil — places in a YAML text

What a character means in YAML depends on where it stands: how far to the right, and whether only
blanks stand before it on its line. A cursor keeps that along with the text that is left.

A text ends at its first NUL character, and each of its line ends is read as a single line feed.

* `Cursor.ofText` — the start of a text.
* `CursorM`        — a reader, which moves a cursor on or fails.
* `CursorM.loop`   — repeats a reader for as long as it asks for it; every round reads something.
-/

namespace Stencil.Yaml

/-! ## Characters -/

/-- A blank within a line. -/
def isGap (c : Char) : Bool := c == ' ' || c == '\t'

/-- A blank or a line end. -/
def isSpace (c : Char) : Bool := isGap c || c == '\n'

/-- A character that structures collections between brackets. -/
def isBracket (c : Char) : Bool :=
  c == ',' || c == '[' || c == ']' || c == '\x7b' || c == '\x7d'

/-- A character of a name in a directive or in front of a tag. -/
def isNameChar (c : Char) : Bool := c.isAlphanum || c == '_' || c == '-'

/-- Whether nothing more of a word comes: a blank, a line end or the end of the text. -/
def endsWord : List Char → Bool
  | []     => true
  | c :: _ => isSpace c

/-- Whether a line ends here. -/
def endsLine : List Char → Bool
  | []     => true
  | c :: _ => c == '\n'

/-- Whether a structuring character comes next. -/
def startsBracket : List Char → Bool
  | []     => false
  | c :: _ => isBracket c

/-- Whether one of the marks between documents comes next. -/
def startsMark (mark : String) (cs : List Char) : Bool :=
  mark.toList.isPrefixOf cs && endsWord (cs.drop mark.length)

/-- The mark before a document. -/
def startMark : String := "---"

/-- The mark after a document. -/
def endMark : String := "..."

/-- Text with a single line feed at each line end. -/
def unifyBreaks : List Char → List Char
  | [] => []
  | '\r' :: '\n' :: cs => '\n' :: unifyBreaks cs
  | '\r' :: cs => '\n' :: unifyBreaks cs
  | c :: cs => c :: unifyBreaks cs

/-! ## Cursors -/

/-- A place in a text. -/
structure Cursor where
  /-- The text that is left. -/
  rest    : List Char
  /-- The length of that text. -/
  left    : Nat
  /-- The number of the line, from zero. -/
  line    : Nat := 0
  /-- The number of characters before this place on its line. -/
  column  : Nat := 0
  /-- Whether nothing but blanks stands there. -/
  fresh   : Bool := true
  left_eq : left = rest.length

namespace Cursor

/-- The start of a text. -/
def ofText (text : String) : Cursor :=
  let rest := unifyBreaks (text.toList.takeWhile (· != '\x00'))
  { rest, left := rest.length, left_eq := rfl }

/-- The place one character on. -/
def next (c : Cursor) : Cursor :=
  match h : c.rest with
  | [] => c
  | ch :: rest =>
    have left_eq : c.left - 1 = rest.length := by simp [c.left_eq, h]
    if ch == '\n' then { rest, left := c.left - 1, line := c.line + 1, left_eq }
    else
      { rest
        left := c.left - 1
        line := c.line
        column := c.column + 1
        fresh := c.fresh && isGap ch
        left_eq }

/-- The place `n` characters on. -/
def skip : Nat → Cursor → Cursor
  | 0, c => c
  | n + 1, c => skip n c.next

end Cursor

/-! ## Readers -/

/-- A reader: it gives a value and moves the cursor on, or it fails. -/
abbrev CursorM (α : Type) := StateT Cursor Option α

/-- What comes of one round of a loop. -/
inductive Round (σ : Type) where
  | again (s : σ)
  | done (s : σ)

namespace CursorM

/-- The text that is left. -/
def rest : CursorM (List Char) := return (← get).rest

/-- The column of the cursor. -/
def column : CursorM Nat := return (← get).column

/-- Reads on only if the condition holds. -/
def require (condition : Bool) : CursorM Unit :=
  if condition then return () else failure

/-- Passes over `n` characters. -/
def skip (n : Nat) : CursorM Unit := modify (Cursor.skip n)

/-- The characters of a class up to the first other one. -/
def span (p : Char → Bool) : CursorM (List Char) := do
  let taken := (← rest).takeWhile p
  skip taken.length
  return taken

/-- Passes over the character `c` if it comes next, and says whether it did. -/
def passes (c : Char) : CursorM Bool := do
  if (← rest).head? == some c then
    skip 1
    return true
  else return false

/-- Repeats a round. A round after which another one is wanted has to have read something. -/
def loop {σ : Type} (round : σ → CursorM (Round σ)) (s : σ) : CursorM σ := fun c =>
  match round s c with
  | none => none
  | some (.done s, c') => some (s, c')
  | some (.again s, c') => if c'.left < c.left then loop round s c' else none
termination_by c => c.left

/-- The blanks here, together with a comment after them. A comment needs a blank before it. -/
def lineTail : CursorM (List Char) := do
  let blanks ← span isGap
  if (← rest).head? == some '#' then
    require !blanks.isEmpty
    let _ ← span (· != '\n')
  return blanks

end CursorM

end Stencil.Yaml
