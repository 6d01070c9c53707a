import Stencil.Settings.Yaml.Cursor
import Stencil.Text.Hexadecimal

/-!
# Stencil — YAML tokens

The tokens of a YAML text, and the readers of those that are names: anchors and references to them,
tags, and the directives before a document. Collections by indentation have tokens of their own
where they begin and end, just as collections between brackets have.

A tag is a handle and a suffix. A directive may give a handle a target, and the tag is then the
target and the suffix together.

* `readAnchor`, `readTag` — an anchor or reference, and a tag.
* `readDirective`         — a directive, with its line.
-/

namespace Stencil.Yaml

open CursorM Text

/-- A token. -/
inductive Token where
  | documentStart
  | documentEnd
  /-- A directive that names a version. -/
  | version
  /-- A directive that gives a handle a target. -/
  | target (handle target : String)
  | blockList
  | blockTable
  /-- The end of a list or table that indentation made. -/
  | blockEnd
  | flowList
  | flowListEnd
  | flowTable
  | flowTableEnd
  /-- The dash before an item. -/
  | dash
  | comma
  /-- What follows is a key. -/
  | key
  /-- The colon after a key. -/
  | value
  /-- A reference to an anchor. -/
  | reference (name : String)
  | anchor (name : String)
  | tag (handle suffix : String)
  | scalar (plain : Bool) (text : String)
  deriving DecidableEq, Repr

/-! ## Anchors -/

/-- A character of the name of an anchor. -/
def isAnchorChar (c : Char) : Bool := !isSpace c && !isBracket c && c != '\ufeff'

/-- The name of an anchor or a reference, read from its mark on. -/
def readAnchor : CursorM String := do
  skip 1
  let name ← span isAnchorChar
  require !name.isEmpty
  return String.ofList name

/-! ## Tags -/

/-- A character that may stand in the target of a handle. -/
def isUriChar (c : Char) : Bool :=
  (isNameChar c && c != '_') || "#;/?:@&=+$,_.!~*'()[]%".toList.contains c

/-- A character that may stand in a tag. -/
def isTagChar (c : Char) : Bool := isUriChar c && !isBracket c && c != '!'

/-- A byte written as a percent sign and two hexadecimal digits. -/
def escapedByte : CursorM Nat := do
  match ← rest with
  | '%' :: a :: b :: _ =>
    match hexNumber? [a, b] with
    | some n =>
      skip 3
      return n
    | none => failure
  | _ => failure

/-- A character written as one byte, or as a leading byte and a trailing byte, which then are the
upper and the lower half of its number. -/
def escapedChar : CursorM Char := do
  let byte ← escapedByte
  if byte < 0x80 then return Char.ofNat byte
  else
    require (decide (0xc0 ≤ byte) && decide (byte < 0xe0))
    let trail ← escapedByte
    require (decide (0x80 ≤ trail) && decide (trail < 0xc0))
    let code := 256 * byte + trail
    require (decide code.isValidChar)
    return Char.ofNat code

/-- Characters of a class, some of them escaped. -/
def uriText (p : Char → Bool) : CursorM String :=
  loop (s := "") fun text => do
    match ← rest with
    | [] => return .done text
    | c :: _ =>
      if !p c then return .done text
      else if c == '%' then return .again (text.push (← escapedChar))
      else
        skip 1
        return .again (text.push c)

/-- A handle: an exclamation mark, or a name between two of them. Only the start of a longer tag
may lack the second one. -/
def readHandle (inDirective : Bool) : CursorM String := do
  require ((← rest).head? == some '!')
  skip 1
  let name ← span isNameChar
  let closed ← passes '!'
  require (closed || name.isEmpty || !inDirective)
  return String.ofList ('!' :: name ++ if closed then ['!'] else [])

/-- The suffix of a tag whose handle is read. -/
def readSuffix (handle : String) : CursorM Token := do
  let suffix ← uriText isTagChar
  if handle.length > 1 && handle.toList.getLast? == some '!' then
    require !suffix.isEmpty
    return .tag handle suffix
  else
    -- without a second mark the name is part of the suffix
    let suffix := String.ofList (handle.toList.drop 1) ++ suffix
    return if suffix.isEmpty then .tag "" "!" else .tag "!" suffix

/-- A tag, read from its mark on. -/
def readTag (inFlow : Bool) : CursorM Token := do
  let tag ←
    match ← rest with
    | _ :: '<' :: _ =>
      skip 2
      let whole ← uriText isUriChar
      require (← passes '>')
      pure (.tag "" whole)
    | _ => readSuffix (← readHandle false)
  let cs ← rest
  require (endsWord cs || (inFlow && startsBracket cs))
  return tag

/-! ## Directives -/

/-- A number of at most nine digits. -/
def readVersionNumber : CursorM Unit := do
  let digits ← span Char.isDigit
  require (!digits.isEmpty && decide (digits.length ≤ 9))

/-- The target of a handle. -/
def readTarget : CursorM String := do
  let first ←
    match ← rest with
    | '!' :: _ => do
      skip 1
      pure '!'
    | c :: _ =>
      require (isTagChar c)
      if c == '%' then escapedChar
      else do
        skip 1
        pure c
    | [] => failure
  return (String.singleton first) ++ (← uriText isUriChar)

/-- What stands after the name of a directive. A directive of another name says nothing, but is one
for a handle that no tag can have. -/
def directiveBody (name : String) : CursorM Token := do
  match name with
  | "YAML" =>
    let _ ← span isGap
    readVersionNumber
    require (← passes '.')
    readVersionNumber
    return .version
  | "TAG" =>
    let _ ← span isGap
    let handle ← readHandle true
    let _ ← span isGap
    let target ← readTarget
    require (endsWord (← rest))
    return .target handle target
  | _ =>
    let _ ← span (· != '\n')
    return .target "" ""

/-- A directive, read from its percent sign to the end of its line. -/
def readDirective : CursorM Token := do
  skip 1
  let name ← span isNameChar
  require (!name.isEmpty && endsWord (← rest))
  let token ← directiveBody (String.ofList name)
  let _ ← lineTail
  require (endsLine (← rest))
  let _ ← passes '\n'
  return token

end Stencil.Yaml
