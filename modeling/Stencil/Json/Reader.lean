import Stencil.Decimal.Reading
import Stencil.Json.Basic
import Stencil.Text.Hexadecimal

/-!
# Stencil — reading JSON

One document and nothing after it but blanks. The reader is strict: no leading zeros, no bare
control characters, no half of a surrogate pair, and no deeper nesting than the caller allows.

A number without point and exponent is an integer as long as 64 bits hold it, with or without a
sign; minus zero and everything longer are floats. The digits of a float are collected while
64 bits hold them, the others only move the point or are dropped, and `Decimal.scaled?` does the
rest; so a long literal may miss the nearest float by one step.
-/

namespace Stencil.Json

open Decimal Text

/-- The nesting that documents read from files may have. -/
def standardDepth : Nat := 127

/-- The blanks of JSON. -/
def isSpace (c : Char) : Bool :=
  c == ' ' || c == '\t' || c == '\n' || c == '\r'

/-- The text from the next character that is no blank. -/
def skipSpace (cs : List Char) : List Char := cs.dropWhile isSpace

/-- The character that a letter after a backslash stands for. -/
def unescape? : Char → Option Char
  | '"'  => some '"'
  | '\\' => some '\\'
  | '/'  => some '/'
  | 'b'  => some '\x08'
  | 't'  => some '\t'
  | 'n'  => some '\n'
  | 'f'  => some '\x0c'
  | 'r'  => some '\r'
  | _    => none

/-- The first of two units that make up one character. -/
def isHighSurrogate (unit : Nat) : Bool := decide (0xd800 ≤ unit) && decide (unit < 0xdc00)

/-- The second of two units that make up one character. -/
def isLowSurrogate (unit : Nat) : Bool := decide (0xdc00 ≤ unit) && decide (unit < 0xe000)

/-- Puts a character in front of what was read. -/
def withChar (c : Char) (r : Option (List Char × List Char)) : Option (List Char × List Char) :=
  r.map fun (cs, rest) => (c :: cs, rest)

/-- Reads a string after its opening quote. `high` is the first unit of a pair that still lacks its
second one. -/
def readString (high : Option Nat) : List Char → Option (List Char × List Char)
  | '\\' :: 'u' :: a :: b :: c :: d :: rest =>
    match hexNumber? [a, b, c, d], high with
    | none, _ => none
    | some unit, none =>
      -- half a pair waits for its other half, which may not come first
      if isHighSurrogate unit then readString (some unit) rest
      else if isLowSurrogate unit then none
      else withChar (Char.ofNat unit) (readString none rest)
    | some unit, some first =>
      if isLowSurrogate unit then
        -- each half holds ten bits of what exceeds sixteen
        withChar (Char.ofNat (0x10000 + (first - 0xd800) * 0x400 + (unit - 0xdc00)))
          (readString none rest)
      else none
  | '\\' :: c :: rest =>
    if high.isSome then none
    else
      match unescape? c with
      | some e => withChar e (readString none rest)
      | none => none
  | c :: rest =>
    if high.isSome then none
    else if c = '"' then some ([], rest)
    else if c < ' ' ∨ c = '\\' then none
    else withChar c (readString none rest)
  | [] => none

/-- The greatest natural number that 64 bits hold. -/
def greatestUnsigned : Nat := Nat.pow 2 64 - 1

/-- Collects digits while 64 bits hold the number; the digits from the first one that does not fit
are left over. -/
def collectDigits (n : Nat) : List Char → Nat × List Char
  | [] => (n, [])
  | c :: cs =>
    let longer := 10 * n + (c.toNat - '0'.toNat)
    if longer ≤ greatestUnsigned then collectDigits longer cs else (n, c :: cs)

/-- The number with the given whole digits, neither point nor exponent following. -/
def wholeNumber (negative : Bool) (digits : List Char) : Option Number :=
  match collectDigits 0 digits with
  | (n, []) =>
    if !negative then some (.integer n)
    -- minus zero keeps its sign only as a float
    else if n = 0 ∨ Nat.pow 2 63 < n then (scaled? true n 0).map .float
    else some (.integer (-(n : Int)))
  | (n, left) => (scaled? negative n left.length).map .float

/-- The float with the given digits before and after the point, scaled by a power of ten. -/
def pointNumber (negative : Bool) (whole part : List Char) (exponent : Int) : Option Number :=
  let (n, left) := collectDigits 0 whole
  let (m, dropped) := collectDigits n part
  -- a whole digit that was left over scales up, a digit of the part that was collected down
  let places : Int := left.length - (part.length - dropped.length : Nat)
  (scaled? negative m (places + exponent)).map .float

/-- Reads the digits of an exponent with its sign. -/
def readPower (cs : List Char) : Option (Int × List Char) :=
  let (negative, rest) := readSign cs
  let digits := rest.takeWhile Char.isDigit
  if digits.isEmpty then none
  else
    let n : Int := digitsValue 0 digits
    some (if negative then -n else n, rest.dropWhile Char.isDigit)

/-- Reads a number. -/
def readNumber (cs : List Char) : Option (Number × List Char) :=
  let (negative, cs) := match cs with
    | '-' :: r => (true, r)
    | r => (false, r)
  let whole := cs.takeWhile Char.isDigit
  let rest := cs.dropWhile Char.isDigit
  -- a zero stands alone or not in front
  if whole.isEmpty ∨ (whole.head? = some '0' ∧ 1 < whole.length) then none
  else
    match rest with
    | '.' :: r =>
      let part := r.takeWhile Char.isDigit
      if part.isEmpty then none
      else
        match r.dropWhile Char.isDigit with
        | 'e' :: r | 'E' :: r => do
          let (power, r) ← readPower r
          return (← pointNumber negative whole part power, r)
        | r => (pointNumber negative whole part 0).map (·, r)
    | 'e' :: r | 'E' :: r => do
      let (power, r) ← readPower r
      return (← pointNumber negative whole [] power, r)
    | r => (wholeNumber negative whole).map (·, r)

/-- Reads the items of an array and its closing bracket. Each item takes a character at least, so
`fuel` need not pass the length of the text by more than one. -/
def readItems (value : List Char → Option (Json × List Char)) :
    (fuel : Nat) → List Char → Option (List Json × List Char)
  | 0, _ => none
  | fuel + 1, cs => do
    let (item, rest) ← value (skipSpace cs)
    match skipSpace rest with
    | ',' :: rest =>
      let (items, rest) ← readItems value fuel rest
      return (item :: items, rest)
    | ']' :: rest => return ([item], rest)
    | _ => none

/-- Reads the members of an object and its closing brace, in the manner of `readItems`. -/
def readMembers (value : List Char → Option (Json × List Char)) :
    (fuel : Nat) → List Char → Option (List (String × Json) × List Char)
  | 0, _ => none
  | fuel + 1, cs => do
    let '"' :: rest := skipSpace cs | none
    let (name, rest) ← readString none rest
    let ':' :: rest := skipSpace rest | none
    let (item, rest) ← value (skipSpace rest)
    match skipSpace rest with
    | ',' :: rest =>
      let (members, rest) ← readMembers value fuel rest
      return ((String.ofList name, item) :: members, rest)
    | '}' :: rest => return ([(String.ofList name, item)], rest)
    | _ => none

/-- Reads a document that starts with the next character and nests at most `depth` deep. The text is
shorter than `bound`. -/
def readValue (bound depth : Nat) (cs : List Char) : Option (Json × List Char) :=
  match cs with
  | 'n' :: 'u' :: 'l' :: 'l' :: rest => some (.null, rest)
  | 't' :: 'r' :: 'u' :: 'e' :: rest => some (.bool true, rest)
  | 'f' :: 'a' :: 'l' :: 's' :: 'e' :: rest => some (.bool false, rest)
  | '"' :: rest => (readString none rest).map fun (s, rest) => (.string (String.ofList s), rest)
  | '[' :: rest =>
    match depth with
    | 0 => none
    | depth + 1 =>
      match skipSpace rest with
      | ']' :: rest => some (.array [], rest)
      | rest =>
        (readItems (readValue bound depth) bound rest).map fun (items, rest) =>
          (.array items, rest)
  | '{' :: rest =>
    match depth with
    | 0 => none
    | depth + 1 =>
      match skipSpace rest with
      | '}' :: rest => some (.object [], rest)
      | rest =>
        (readMembers (readValue bound depth) bound rest).map fun (members, rest) =>
          (.object members, rest)
  | cs => (readNumber cs).map fun (n, rest) => (.number n, rest)

/-- Reads the one document of a text. -/
def read? (depth : Nat) (text : String) : Option Json := do
  let cs := text.toList
  let (document, rest) ← readValue (cs.length + 1) depth (skipSpace cs)
  if (skipSpace rest).isEmpty then some document else none

end Stencil.Json
