/-!
# Stencil — blanks

Blanks are the twenty-five characters with the White_Space property. They separate the words of a
loop tag and are trimmed from both ends of a tag and of an include name. The zero-width space, the
word joiner and the byte order mark are not blanks.
-/

namespace Stencil.Text

/-- Every blank, in code point order. -/
def blanks : List Char :=
  ['\t', '\n', '\x0b', '\x0c', '\r', ' ', '\x85', '\xa0', '\u1680',
   '\u2000', '\u2001', '\u2002', '\u2003', '\u2004', '\u2005', '\u2006', '\u2007', '\u2008',
   '\u2009', '\u200a', '\u2028', '\u2029', '\u202f', '\u205f', '\u3000']

/-- Whether `c` is a blank. -/
def isBlank (c : Char) : Bool :=
  blanks.contains c

/-- `cs` without the blanks it starts with. -/
def trimStart (cs : List Char) : List Char :=
  cs.dropWhile isBlank

/-- `cs` without the blanks it ends with. -/
def trimEnd (cs : List Char) : List Char :=
  (cs.reverse.dropWhile isBlank).reverse

/-- `cs` without the blanks at either end. -/
def trim (cs : List Char) : List Char :=
  trimEnd (trimStart cs)

end Stencil.Text
