import Stencil.Settings.Yaml.Cursor
import Stencil.Text.Hexadecimal

/-!
# Stencil — YAML scalars

Three ways to write a text. A plain scalar is words as they stand; a quoted one may hold anything,
with escapes between double quotes; a block scalar is the lines below its mark that are indented
far enough. Plain and quoted scalars run over line ends: one line end counts as a space, more of
them as one line end fewer.

* `plainScalar`  — words, up to a comment, a colon that ends a key or a line indented too little.
* `quotedScalar` — a string between quotes.
* `blockScalar`  — the lines below a mark.

What is indented too little depends on the collection around a scalar. Readers take the column that
its lines must reach, or must pass, as an argument.
-/

namespace Stencil.Yaml

open CursorM Text

/-- So many line ends. -/
def breaks (n : Nat) : String := String.ofList (List.replicate n '\n')

/-- What stands between two words of a scalar: blanks, or line ends. -/
structure Gap where
  blanks : String := ""
  breaks : Nat := 0

/-- What a gap adds to a scalar. -/
def Gap.text (g : Gap) : String :=
  match g.breaks with
  | 0     => g.blanks
  | 1     => " "
  | n + 2 => Yaml.breaks (n + 1)

/-- Whether a mark between documents comes next; it stands at the start of a line. -/
def atMark : CursorM Bool := do
  let cs ← rest
  return (← column) == 0 && (startsMark startMark cs || startsMark endMark cs)

/-! ## Plain scalars -/

/-- The length of the plain word here. A colon ends it before a blank, and between brackets so does
every structuring character. -/
def wordLength (inFlow : Bool) : List Char → Nat
  | [] => 0
  | c :: cs =>
    if isSpace c || (inFlow && isBracket c) then 0
    else if c == ':' && (endsWord cs || (inFlow && startsBracket cs)) then 0
    else 1 + wordLength inFlow cs

/-- The gap after a plain word. Short of column `least` a tab may stand on an empty line only. -/
def plainGap (least : Int) : CursorM Gap :=
  loop (s := ({} : Gap)) fun g => do
    match ← rest with
    | [] => return .done g
    | c :: _ =>
      if c == '\n' then
        skip 1
        return .again { g with breaks := g.breaks + 1 }
      else if !isGap c then return .done g
      else if !(← get).fresh then
        skip 1
        return .again { g with blanks := g.blanks.push c }
      else if c == '\t' && decide (((← column) : Int) < least) then
        let _ ← lineTail
        require (endsLine (← rest))
        return .again g
      else
        skip 1
        return .again g

/-- A plain scalar whose further lines are indented by `least` at least. Between brackets
indentation does not end it. -/
def plainScalar (inFlow : Bool) (least : Int) : CursorM String := do
  let (text, _) ← loop (s := ("", ({} : Gap))) fun (text, gap) => do
    let cs ← rest
    if (← atMark) || cs.head? == some '#' then return .done (text, gap)
    -- a lone dash before a bracket is neither a word nor an item
    require !(inFlow && cs.head? == some '-' && startsBracket (cs.drop 1))
    let word := cs.take (wordLength inFlow cs)
    skip word.length
    let text := if word.isEmpty then text else text ++ gap.text ++ String.ofList word
    let cs ← rest
    if cs.isEmpty || !endsWord cs then return .done (text, gap)
    let gap ← plainGap least
    if !inFlow && decide (((← column) : Int) < least) then return .done (text, gap)
    return .again (text, gap)
  require !text.isEmpty
  return text

/-! ## Quoted scalars -/

/-- The number written in the next `count` hexadecimal digits. -/
def hexDigits (count : Nat) : CursorM Nat := do
  let digits := (← rest).take count
  require (digits.length == count)
  skip count
  match hexNumber? digits with
  | some n => return n
  | none   => failure

/-- The character with a number. -/
def character (n : Nat) : CursorM Char :=
  if n.isValidChar then return Char.ofNat n else failure

/-- The character that an escape stands for, read from its backslash on. -/
def escape : CursorM Char := do
  let code := ((← rest).drop 1).head?
  skip 2
  match code with
  | some '0' => return '\x00'
  | some 'a' => return '\x07'
  | some 'b' => return '\x08'
  | some 't' | some '\t' => return '\t'
  | some 'n' => return '\n'
  | some 'v' => return '\x0b'
  | some 'f' => return '\x0c'
  | some 'r' => return '\r'
  | some 'e' => return '\x1b'
  | some ' ' => return ' '
  | some '"' => return '"'
  | some '/' => return '/'
  | some '\\' => return '\\'
  | some 'N' => return '\x85'
  | some '_' => return '\xa0'
  | some 'L' => return '\u2028'
  | some 'P' => return '\u2029'
  | some 'x' => character (← hexDigits 2)
  | some 'u' => character (← hexDigits 4)
  | some 'U' => character (← hexDigits 8)
  | _ => failure

/-- The characters of a quoted scalar up to a blank, a line end or the closing quote, and whether
they end in a backslash that takes the line end away. -/
def quotedWord (quote : Char) : CursorM (String × Bool) :=
  loop (s := ("", false)) fun (text, _) => do
    match ← rest with
    | [] => return .done (text, false)
    | c :: cs =>
      if isSpace c then return .done (text, false)
      else if c == quote then
        if quote == '\'' && cs.head? == some '\'' then
          skip 2
          return .again (text.push '\'', false)
        else return .done (text, false)
      else if quote == '"' && c == '\\' then
        if cs.head? == some '\n' then
          skip 2
          return .done (text, true)
        else return .again (text.push (← escape), false)
      else
        skip 1
        return .again (text.push c, false)

/-- The gap after a word of a quoted scalar. Blanks at the start of a line do not count, and short
of column `least` no tab may be among them. -/
def quotedGap (least : Int) (joined : Bool) : CursorM Gap :=
  loop (s := ({} : Gap)) fun g => do
    match ← rest with
    | [] => return .done g
    | c :: _ =>
      if c == '\n' then
        skip 1
        return .again { g with breaks := g.breaks + 1 }
      else if !isGap c then return .done g
      else if joined || g.breaks != 0 then
        require !(c == '\t' && decide (((← column) : Int) < least))
        skip 1
        return .again g
      else
        skip 1
        return .again { g with blanks := g.blanks.push c }

/-- A quoted scalar, read from its opening quote on, whose lines are indented by `least` at
least. -/
def quotedText (quote : Char) (least : Int) : CursorM String := do
  skip 1
  let text ← loop (s := "") fun text => do
    require !(← atMark)
    require !(← rest).isEmpty
    require !decide (((← column) : Int) < least)
    let (word, joined) ← quotedWord quote
    if (← rest).head? == some quote then return .done (text ++ word)
    let gap ← quotedGap least joined
    return .again (text ++ word ++ if joined then breaks gap.breaks else gap.text)
  skip 1
  return text

/-- A quoted scalar and what may follow it on its line: nothing, a colon, or between brackets the
next character of structure. Outside of brackets a key is all on one line. -/
def quotedScalar (quote : Char) (inFlow : Bool) (least : Int) : CursorM String := do
  let line := (← get).line
  let text ← quotedText quote least
  let _ ← lineTail
  let c ← get
  match c.rest with
  | ':' :: _ => require (inFlow || c.line == line)
  | ',' :: _ | ']' :: _ | '}' :: _ => require inFlow
  | cs => require (endsLine cs)
  return text

/-! ## Block scalars -/

/-- What becomes of the line ends at the end of a block scalar. -/
inductive Chomp where
  | strip
  | clip
  | keep
  deriving DecidableEq, Repr

/-- What a sign after the mark says of line ends at the end. -/
def Chomp.ofSign? : List Char → Option Chomp
  | '-' :: _ => some strip
  | '+' :: _ => some keep
  | _        => none

/-- The signs after the mark of a block scalar: what to do at the end, and how much further the
lines are indented than the collection around them, zero where this is not said. -/
def blockHeader : CursorM (Chomp × Nat) := do
  match Chomp.ofSign? (← rest) with
  | some chomp =>
    skip 1
    return (chomp, ← indentDigit)
  | none =>
    let digit ← indentDigit
    match Chomp.ofSign? (← rest) with
    | some chomp =>
      skip 1
      return (chomp, digit)
    | none => return (.clip, digit)
where
  /-- A digit other than zero, or nothing. -/
  indentDigit : CursorM Nat := do
    match ← rest with
    | c :: _ =>
      if c.isDigit then
        require (c != '0')
        skip 1
        return c.toNat - '0'.toNat
      else return 0
    | [] => return 0

/-- Passes over empty lines and over the indentation of the line after them, up to column `column`;
gives the number of empty lines. -/
def passEmpty (column : Nat) : CursorM Nat :=
  loop (s := 0) fun empties => do
    let cs ← rest
    skip ((cs.take column).takeWhile (· == ' ')).length
    if ← passes '\n' then return .again (empties + 1) else return .done empties

/-- Finds the column of a block scalar: the widest indentation of its first line and the empty lines
before it. Gives that column and the number of empty lines. -/
def findColumn (indent : Int) : CursorM (Nat × Nat) := do
  let (widest, empties) ← loop (s := (0, 0)) fun (widest, empties) => do
    let _ ← span (· == ' ')
    let widest := max widest (← column)
    if ← passes '\n' then return .again (widest, empties + 1) else return .done (widest, empties)
  return (max widest (indent + 1).toNat, empties)

/-- The lines of a block scalar as read so far. -/
structure BlockText where
  text    : String := ""
  /-- Whether the line read last starts with a blank; nothing before the first line. -/
  blank?  : Option Bool := none
  /-- Whether that line has ended. -/
  ended   : Bool := false
  /-- How many empty lines follow it. -/
  empties : Nat

/-- What stands between the lines so far and the next one. When lines are folded, a single line end
between lines that start with no blank is a space. -/
def BlockText.joint (b : BlockText) (folded blank : Bool) : String :=
  match b.blank? with
  | none => breaks b.empties
  | some before =>
    if folded && !before && !blank then
      if b.empties == 0 then " " else breaks b.empties
    else breaks (b.empties + 1)

/-- The lines of a block scalar in column `column`. -/
def blockLines (folded : Bool) (column empties : Nat) : CursorM BlockText :=
  loop (s := { empties }) fun b => do
    let c ← get
    if c.column != column || c.rest.isEmpty || (column == 0 && startsMark endMark c.rest) then
      return .done b
    let line ← span (· != '\n')
    let blank := (line.head?.map isGap).getD false
    let text := b.text ++ b.joint folded blank ++ String.ofList line
    if ← passes '\n' then
      return .again { text, blank? := some blank, ended := true, empties := ← passEmpty column }
    else return .done { text, blank? := some blank, empties := 0 }

/-- A block scalar, read from its mark on, inside a collection in column `indent`. -/
def blockScalar (folded : Bool) (indent : Int) : CursorM String := do
  skip 1
  let (chomp, further) ← blockHeader
  let _ ← lineTail
  require (endsLine (← rest))
  let headed ← passes '\n'
  require ((← rest).head? != some '\t')
  let (column, empties) ←
    if further == 0 then findColumn indent
    else
      let column := (max indent 0).toNat + further
      pure (column, ← passEmpty column)
  let c ← get
  if c.rest.isEmpty then
    -- no line of text: only line ends can be left
    return match chomp with
      | .strip => ""
      | .clip  => if headed then "\n" else ""
      | .keep  => if headed then breaks (max empties 1) else ""
  require !(decide (c.column < column) && decide (indent < (c.column : Int)))
  let b ← blockLines folded column empties
  let c ← get
  -- a text that stops within the scalar counts as if its last line had an end
  let cut := c.rest.isEmpty && decide (max column 1 ≤ c.column)
  let ends := breaks ((if b.ended then 1 else 0) + if cut then 1 else 0)
  return match chomp with
    | .strip => b.text
    | .clip  => b.text ++ ends
    | .keep  => b.text ++ ends ++ breaks b.empties

end Stencil.Yaml
