import Stencil.Settings.Yaml.Scalar
import Stencil.Settings.Yaml.Token

/-!
# Stencil — the layout of a YAML text

Indentation and colons say where collections begin and end. Reading a text from left to right, the
layout keeps the columns of the collections that are open, the brackets that are open, and for each
of these the place where a key may have begun. A colon makes a key of what stands there, and then,
unless a table is open in that column, the table starts there too: both tokens go in front of some
that were read already.

A key that no bracket surrounds is on one line, and at most 1024 characters before its colon. What
starts a line in the column of an open table has to be one.

* `Layout.step`   — reads one token, and those that it implies.
* `Layout.tokens?` — the tokens of a text, or nothing when its layout is not well formed.
-/

namespace Stencil.Yaml

open CursorM

/-- A column that is open. -/
structure Level where
  column : Nat
  /-- Whether a list or table stands in it. If not, it is the least column of what belongs to an
  entry, as long as no collection begins there. -/
  block  : Bool
  deriving DecidableEq, Repr

/-- A place where a key may have begun. -/
structure KeyStart where
  /-- The number of tokens before it. -/
  token    : Nat
  line     : Nat
  column   : Nat
  /-- Whether nothing but a key may stand there. -/
  required : Bool
  deriving DecidableEq, Repr

/-- How far a text is read. -/
structure Layout where
  cursor     : Cursor
  tokens     : Array Token := #[]
  /-- The columns that are open, innermost first. -/
  levels     : List Level := []
  /-- Whether a key may begin here. -/
  keyAllowed : Bool := true
  /-- The place where a key may have begun, within the innermost brackets. -/
  key?       : Option KeyStart := none
  /-- The same for the brackets around them, one for each pair that is open. -/
  outerKeys  : List (Option KeyStart) := []
  /-- Whether a colon belongs to a table that is open already. -/
  inTable    : Bool := false
  /-- For each list between brackets, innermost first: whether it holds a lone entry here, which is
  a table without brackets. -/
  entries    : List Bool := []
  /-- The place after a quoted scalar or a bracket, where a colon needs no blank after it. -/
  adjacent?  : Option (Nat × Nat) := none

/-- A step of reading a layout. -/
abbrev LayoutM (α : Type) := StateT Layout Option α

namespace Layout

/-- How many brackets may be open. -/
def mostBrackets : Nat := 255

/-- How far a colon may stand after the start of its key. -/
def longestKey : Nat := 1024

/-- Whether brackets are open. -/
def inFlow (l : Layout) : Bool := !l.outerKeys.isEmpty

/-- The innermost open column; outside of all it lies left of the first one. -/
def indent (l : Layout) : Int :=
  match l.levels with
  | [] => -1
  | level :: _ => level.column

/-- Whether a collection stands in the innermost open column. -/
def inBlock (l : Layout) : Bool := (l.levels.head?.map Level.block).getD false

/-- With one more token. -/
def push (l : Layout) (t : Token) : Layout := { l with tokens := l.tokens.push t }

/-- With a token in front of the one of the given number. -/
def insert (l : Layout) (number : Nat) (t : Token) : Layout :=
  { l with tokens := l.tokens.insertIdxIfInBounds number t }

/-- Closes the collections right of a column. Between brackets indentation closes nothing. -/
def closeTo (l : Layout) (column : Int) : Layout :=
  if l.inFlow then l
  else
    let right (level : Level) : Bool := decide (column < (level.column : Int))
    let ends := ((l.levels.takeWhile right).filter Level.block).map fun _ => Token.blockEnd
    { l with
      levels := l.levels.dropWhile right
      tokens := l.tokens.append ends.toArray }

/-- Opens a collection in a column, unless one is open there. Its first token goes in front of the
one of the given number. -/
def openAt (l : Layout) (column number : Nat) (t : Token) : Layout :=
  if l.inFlow then l
  else
    let l := match l.levels with
      | level :: levels =>
        if level.column ≤ column && !level.block then { l with levels } else l
      | [] => l
    if l.indent < (column : Int) then
      { l with levels := { column, block := true } :: l.levels }.insert number t
    else l

/-- Wants what comes next to be one column further right than the collection it belongs to. -/
def openEntry (l : Layout) : Layout :=
  match l.levels with
  | level :: levels =>
    if !l.inFlow && level.block then
      { l with levels := { column := level.column + 1, block := false } :: level :: levels }
    else l
  | [] => l

/-- Drops what `openEntry` wanted. -/
def dropEntry (l : Layout) : Layout := { l with levels := l.levels.dropWhile (!·.block) }

/-- Notes that a key may begin here, if it may. -/
def markKey (l : Layout) : Layout :=
  if l.keyAllowed then
    { l with
      key? := some {
        token := l.tokens.size
        line := l.cursor.line
        column := l.cursor.column
        required := !l.inFlow && decide (l.indent = l.cursor.column) && l.inBlock } }
  else l

/-- Whether the key that may have begun can still have its colon here. -/
def keyReaches (l : Layout) (k : KeyStart) : Bool :=
  l.inFlow || (k.line == l.cursor.line && decide (l.cursor.column ≤ k.column + longestKey))

/-- Gives up the key that may have begun, unless there has to be one. -/
def dropKey (l : Layout) : Option Layout :=
  if (l.key?.map KeyStart.required).getD false then none else some { l with key? := none }

/-- Gives up the key that may have begun once its colon can no longer follow. -/
def dropStaleKey (l : Layout) : Option Layout :=
  match l.key? with
  | none => some l
  | some k => if l.keyReaches k then some l else l.dropKey

/-- Ends a lone entry of a list between brackets. -/
def endEntry (l : Layout) : Layout :=
  match l.entries with
  | true :: entries =>
    { l with inTable := false, entries := false :: entries }.push .flowTableEnd
  | _ => l

/-- Runs a reader at the cursor. -/
def reading {α : Type} (r : CursorM α) : LayoutM α := fun l =>
  (r l.cursor).map fun (a, cursor) => (a, { l with cursor })

/-- Changes the layout. -/
def change (f : Layout → Layout) : LayoutM Unit := modify f

/-- Changes the layout, or fails. -/
def tryChange (f : Layout → Option Layout) : LayoutM Unit := fun l => (f l).map fun l => ((), l)

/-! ## Blanks -/

/-- Whether a tab here stands where a collection has its indentation. -/
def tabIndents (l : Layout) : Bool :=
  !l.levels.isEmpty && l.cursor.fresh && decide ((l.cursor.column : Int) < l.indent)

/-- Passes over blanks, comments and line ends. After a line end a key may begin, though not between
brackets. A tab may stand in indentation on an empty line only. -/
def toToken : (fuel : Nat) → LayoutM Unit
  | 0 => return ()
  | fuel + 1 => do
    let l ← get
    match l.cursor.rest with
    | [] => return ()
    | c :: _ =>
      if c == '\t' && l.tabIndents then
        let _ ← reading lineTail
        if endsLine (← get).cursor.rest then toToken fuel else failure
      else if isGap c then
        reading (skip 1)
        toToken fuel
      else if c == '\n' then
        reading (skip 1)
        change fun l => { l with keyAllowed := l.keyAllowed || !l.inFlow }
        toToken fuel
      else if c == '#' then
        let _ ← reading (span (· != '\n'))
        toToken fuel
      else return ()

/-- Passes over everything before the next token. -/
def skipToToken : LayoutM Unit := do toToken ((← get).cursor.left + 1)

/-! ## Structure -/

/-- A directive. -/
def directive : LayoutM Unit := do
  change (·.closeTo (-1))
  tryChange dropKey
  let t ← reading readDirective
  change fun l => { l with keyAllowed := false }.push t

/-- A mark between documents. -/
def documentMark (t : Token) : LayoutM Unit := do
  change (·.closeTo (-1))
  tryChange dropKey
  reading (skip 3)
  change fun l => { l with keyAllowed := false }.push t

/-- The mark after a document; only a comment may follow it on its line. -/
def documentEnd : LayoutM Unit := do
  documentMark .documentEnd
  let _ ← reading lineTail
  if endsLine (← get).cursor.rest then return () else failure

/-- An opening bracket. -/
def openBracket (t : Token) : LayoutM Unit := do
  change fun l => l.markKey.openEntry
  let l ← get
  if mostBrackets ≤ l.outerKeys.length then failure
  set { l with key? := none, outerKeys := l.key? :: l.outerKeys, keyAllowed := true }
  change fun l =>
    if t == .flowTable then { l with inTable := true } else { l with entries := false :: l.entries }
  reading (skip 1)
  let _ ← reading lineTail
  change (·.push t)

/-- A closing bracket. -/
def closeBracket (t : Token) : LayoutM Unit := do
  let l ← get
  match l.outerKeys with
  | [] => failure
  | key? :: outerKeys =>
    set { l with key?, outerKeys, keyAllowed := false }
    if t == .flowListEnd then
      change endEntry
      change fun l => { l with entries := l.entries.drop 1 }
    reading (skip 1)
    let _ ← reading lineTail
    change fun l =>
      if l.inFlow then { l with adjacent? := some (l.cursor.line, l.cursor.column) } else l
    change (·.push t)

/-- A comma. -/
def comma : LayoutM Unit := do
  tryChange dropKey
  change fun l => { l with keyAllowed := true }.endEntry
  reading (skip 1)
  let _ ← reading lineTail
  change (·.push .comma)

/-- The dash before an item of a list. -/
def dash : LayoutM Unit := do
  let l ← get
  if l.inFlow || !l.keyAllowed then failure
  reading (skip 1)
  change (·.openAt l.cursor.column l.tokens.size .blockList)
  let blanks ← reading lineTail
  let cs := (← get).cursor.rest
  -- items on one line are in columns, which a tab does not make
  if blanks.contains '\t' && cs.head? == some '-' && endsWord (cs.drop 1) then failure
  if cs.head? == some '\n' || startsBracket cs then change openEntry
  tryChange dropKey
  change fun l => { l with keyAllowed := true }.push .dash

/-- Passes over blanks, of which there has to be one, but over no tab. -/
def keyGap : LayoutM Unit := do
  match (← get).cursor.rest with
  | ' ' :: _ | '\n' :: _ => go ((← get).cursor.left + 1)
  | _ => failure
where
  /-- Passes over spaces, comments and line ends. -/
  go : (fuel : Nat) → LayoutM Unit
    | 0 => return ()
    | fuel + 1 => do
      match (← get).cursor.rest with
      | ' ' :: _ =>
        reading (skip 1)
        go fuel
      | '\n' :: _ =>
        reading (skip 1)
        change fun l => { l with keyAllowed := l.keyAllowed || !l.inFlow }
        go fuel
      | '#' :: _ =>
        let _ ← reading (span (· != '\n'))
        go fuel
      | '\t' :: _ => failure
      | _ => return ()

/-- A question mark, which says that a key follows. -/
def keyMark : LayoutM Unit := do
  let l ← get
  if l.inFlow then
    set { l with inTable := true }
  else
    if !l.keyAllowed then failure
    set (l.openAt l.cursor.column l.tokens.size .blockTable)
  tryChange dropKey
  change fun l => { l with keyAllowed := !l.inFlow }
  reading (skip 1)
  keyGap
  change (·.push .key)

/-- The blanks after the colon of a key. With a tab alone no word may follow on the line. -/
def valueGap : LayoutM Unit := do
  if (← get).cursor.rest.head? == some '\t' then
    let blanks ← reading lineTail
    let next? := (← get).cursor.rest.head?
    if !blanks.contains ' ' && (next?.map isNameChar).getD false then failure

/-- A colon, which says that a value follows. A list between brackets may hold a lone entry; its
table starts with its key. -/
def valueMark : LayoutM Unit := do
  let l ← get
  let lone := !l.entries.isEmpty && !l.inTable
  if lone then set { l with entries := true :: l.entries.drop 1 }
  reading (skip 1)
  valueGap
  match l.key? with
  | some k =>
    change (·.insert k.token .key)
    if lone then
      if k.line < l.cursor.line then failure
      change (·.insert k.token .flowTable)
    change fun l =>
      { (l.openAt k.column k.token .blockTable).openEntry with key? := none, keyAllowed := false }
  | none =>
    if lone then change (·.push .flowTable)
    if !l.inFlow then
      if !l.keyAllowed then failure
      change fun m => m.openAt l.cursor.column m.tokens.size .blockTable
    change fun l => { l.openEntry with keyAllowed := !l.inFlow }
  change (·.push .value)

/-! ## Nodes -/

/-- An anchor, a reference or a tag. -/
def label (r : CursorM Token) : LayoutM Unit := do
  change markKey
  let t ← reading r
  change fun l => { l with keyAllowed := false }.push t

/-- A quoted scalar, and the blanks after it. -/
def quoted (quote : Char) : LayoutM Unit := do
  change markKey
  let l ← get
  let text ← reading (quotedScalar quote l.inFlow l.indent)
  change fun l => { l with keyAllowed := false }
  skipToToken
  change fun l =>
    { l with adjacent? := some (l.cursor.line, l.cursor.column) }.push (.scalar false text)

/-- A block scalar. -/
def block (folded : Bool) : LayoutM Unit := do
  change fun l => { l.markKey.dropEntry with keyAllowed := true }
  let text ← reading (blockScalar folded (← get).indent)
  change (·.push (.scalar false text))

/-- A plain scalar. When it ended with a line, a key may follow. -/
def plain : LayoutM Unit := do
  change fun l => l.markKey.dropEntry
  let l ← get
  -- between brackets as well, a word stands further right than the collection around them
  if l.inFlow && decide ((l.cursor.column : Int) ≤ l.indent) then failure
  let text ← reading (plainScalar l.inFlow (l.indent + 1))
  change fun l => { l with keyAllowed := l.cursor.fresh }.push (.scalar true text)

/-- Whether a colon here, with `after` behind it, has a value after it. -/
def startsValue (l : Layout) (after : List Char) : Bool :=
  endsWord after || (l.inFlow &&
    (startsBracket after || l.adjacent? == some (l.cursor.line, l.cursor.column)))

/-- The token that starts with the given character, with `after` behind it. -/
def token (c : Char) (after : List Char) : LayoutM Unit := do
  let l ← get
  match c with
  | '[' => openBracket .flowList
  | '{' => openBracket .flowTable
  | ']' => closeBracket .flowListEnd
  | '}' => closeBracket .flowTableEnd
  | ',' => comma
  | '-' => if endsWord after then dash else plain
  | '?' => if endsWord after then keyMark else plain
  | ':' => if l.startsValue after then valueMark else plain
  | '*' => label (Token.reference <$> readAnchor)
  | '&' => label (Token.anchor <$> readAnchor)
  | '!' => label (readTag l.inFlow)
  | '|' => if l.inFlow then plain else block false
  | '>' => if l.inFlow then plain else block true
  | '\'' => quoted '\''
  | '"' => quoted '"'
  | '%' | '@' | '\x60' => failure
  | _ => plain

/-- The end of the text. -/
def finish : LayoutM Unit := do
  if (← get).inFlow then failure
  tryChange dropKey
  change (·.closeTo (-1))

/-- Reads the next token. Says whether the text goes on. -/
def step : LayoutM Bool := do
  skipToToken
  tryChange dropStaleKey
  change fun l => l.closeTo l.cursor.column
  let l ← get
  match l.cursor.rest with
  | [] =>
    finish
    return false
  | c :: after =>
    if l.cursor.column = 0 ∧ c = '%' then directive
    else if l.cursor.column = 0 ∧ startsMark startMark l.cursor.rest then
      documentMark .documentStart
    else if l.cursor.column = 0 ∧ startsMark endMark l.cursor.rest then documentEnd
    else
      if (l.cursor.column : Int) < l.indent then failure
      token c after
    return true

/-- Reads to the end of the text. Every token has at least one character of its own. -/
def run (l : Layout) : Option Layout :=
  match step l with
  | none => none
  | some (false, l') => some l'
  | some (true, l') => if l'.cursor.left < l.cursor.left then run l' else none
termination_by l.cursor.left

/-- The tokens of a text. -/
def tokens? (text : String) : Option (List Token) :=
  (run { cursor := Cursor.ofText text }).map fun l => l.tokens.toList

end Layout

end Stencil.Yaml
