/-!
# Stencil — scanners

A scanner reads from the front of a text: it gives a value and leaves the rest, or it fails and
leaves the text as it was. Scanners are put together with `do` and `<|>`.

`many` repeats a scanner for as long as each round reads something, so it always ends.
-/

namespace Stencil.Text

/-- Reads a value from the front of a text. -/
abbrev Scan (α : Type) := StateT (List Char) Option α

namespace Scan

variable {α : Type}

/-- The next character, left in place. -/
def peek? : Scan (Option Char) := fun cs => some (cs.head?, cs)

/-- The next character, which has to be of the given class. -/
def one (p : Char → Bool) : Scan Char
  | c :: cs => if p c then some (c, cs) else none
  | [] => none

/-- Exactly the character `c`. -/
def char (c : Char) : Scan Unit := do
  let _ ← one (· == c)

/-- Exactly the characters of `word`. -/
def word (word : String) : Scan Unit := fun cs =>
  if word.toList.isPrefixOf cs then some ((), cs.drop word.length) else none

/-- The characters of a class up to the first other one. -/
def span (p : Char → Bool) : Scan (List Char) := fun cs =>
  some (cs.takeWhile p, cs.dropWhile p)

/-- One or more characters of a class. -/
def span1 (p : Char → Bool) : Scan (List Char) := do
  let c ← one p
  let cs ← span p
  return c :: cs

/-- A scanner that may find nothing. -/
def optional (p : Scan α) : Scan (Option α) :=
  (some <$> p) <|> pure none

/-- Reads on only if nothing is left. -/
def atEnd : Scan Unit := fun cs => if cs.isEmpty then some ((), cs) else none

/-- Whether the text starts with `word`; nothing is read. -/
def startsWith (word : String) : Scan Bool := fun cs => some (word.toList.isPrefixOf cs, cs)

/-- The values of as many rounds of `p` as read something each. -/
def rounds (p : Scan α) (cs : List Char) : List α × List Char :=
  match p cs with
  | none => ([], cs)
  | some (a, rest) =>
    if rest.length < cs.length then
      let (as, rest) := rounds p rest
      (a :: as, rest)
    else ([], cs)
termination_by cs.length

/-- As many rounds of `p` as read something each. -/
def many (p : Scan α) : Scan (List α) := fun cs => some (rounds p cs)

/-- The value of a scanner that reads a whole text. -/
def whole? (p : Scan α) (cs : List Char) : Option α :=
  match p cs with
  | some (a, []) => some a
  | _ => none

end Scan

end Stencil.Text
