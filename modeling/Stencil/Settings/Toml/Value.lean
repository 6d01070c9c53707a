import Stencil.Settings.Datum
import Stencil.Text.Hexadecimal
import Stencil.Text.Scan

/-!
# Stencil — TOML values

Keys and values of a TOML document: the four forms of string, whole numbers in four bases, floats,
truth values, dates and times, arrays and inline tables. The format is strict: no leading zeros, an
underscore only between digits, whole numbers within 64 bits with a sign, no control characters.
Dates and times are checked and kept as text.
-/

namespace Stencil.Toml

open Text Text.Scan

/-! ## Blanks, line ends and comments -/

/-- A blank within a line. -/
def isGap (c : Char) : Bool := c == ' ' || c == '\t'

/-- A control character, which may stand nowhere, not even in a comment. -/
def isControl (c : Char) : Bool := (decide (c < ' ') && c != '\t') || c == '\x7f'

/-- Blanks within a line. -/
def gap : Scan Unit := do
  let _ ← span isGap

/-- The end of a line. -/
def lineEnd : Scan Unit := word "\r\n" <|> char '\n'

/-- A comment, up to the end of its line. -/
def comment : Scan Unit := do
  char '#'
  let _ ← span fun c => !isControl c

/-- One stretch of blanks, one comment or one line end. -/
def fillerPart : Scan Unit := (do let _ ← span1 isGap) <|> comment <|> lineEnd

/-- Blanks, comments and line ends. -/
def filler : Scan Unit := do
  let _ ← many fillerPart

/-! ## Strings -/

/-- The character of a code point written in hexadecimal digits. -/
def codePoint? (digits : List Char) : Option Char := do
  let n ← hexNumber? digits
  if n.isValidChar then some (Char.ofNat n) else none

/-- The characters of a string before its closing quote. -/
abbrev Chars := List Char

/-- The character behind a backslash. -/
def escaped : Scan Char := do
  let c ← one fun _ => true
  match c with
  | 'b' => return '\x08'
  | 't' => return '\t'
  | 'n' => return '\n'
  | 'f' => return '\x0c'
  | 'r' => return '\r'
  | '"' => return '"'
  | '\\' => return '\\'
  | 'u' => hexCharacter 4
  | 'U' => hexCharacter 8
  | _ => failure
where
  /-- A character written in so many hexadecimal digits. -/
  hexCharacter (count : Nat) : Scan Char := fun cs =>
    if cs.length < count then none
    else (codePoint? (cs.take count)).map fun c => (c, cs.drop count)

/-- A string between double quotes, on one line. -/
def basicString : Scan Chars := do
  char '"'
  let cs ← many ((do char '\\'; escaped) <|> one fun c => !isControl c && c != '"' && c != '\\')
  char '"'
  return cs

/-- A string between single quotes, on one line; nothing is escaped. -/
def literalString : Scan Chars := do
  char '\''
  let cs ← span fun c => !isControl c && c != '\''
  char '\''
  return cs

/-- A run of quotes inside a string of several lines or at its end: up to two stand for themselves,
and three more close the string. Gives what stands for itself, and whether the string is closed. -/
def quoteRun (quote : Char) : Scan (Chars × Bool) := fun cs =>
  let count := (cs.takeWhile (· == quote)).length
  if count = 0 then none
  else if count < 3 then some ((List.replicate count quote, false), cs.drop count)
  else
    -- the last three quotes close; up to two before them are content
    let kept := min (count - 3) 2
    some ((List.replicate kept quote, true), cs.drop (kept + 3))

/-- A run of quotes that closes nothing. -/
def innerQuotes (quote : Char) : Scan Chars := do
  let (cs, closed) ← quoteRun quote
  if closed then failure else return cs

/-- A backslash at the end of a line, with all blanks and line ends after it. -/
def joinedLines : Scan Chars := do
  char '\\'
  gap
  lineEnd
  let _ ← many ((do let _ ← span1 isGap) <|> lineEnd)
  return []

/-- A part of a string of several lines between three double quotes. -/
def basicPart : Scan Chars :=
  innerQuotes '"' <|> joinedLines <|> (do char '\\'; return [← escaped]) <|>
    (do lineEnd; return ['\n']) <|> span1 fun c => !isControl c && c != '"' && c != '\\'

/-- A part of a string of several lines between three single quotes. -/
def literalPart : Scan Chars :=
  innerQuotes '\'' <|> (do lineEnd; return ['\n']) <|> span1 fun c => !isControl c && c != '\''

/-- A string of several lines; a line end just after its opening quotes does not count. -/
def longString (quote : Char) (part : Scan Chars) : Scan Chars := do
  char quote
  char quote
  char quote
  let _ ← Scan.optional lineEnd
  let parts ← many part
  let (last, closed) ← quoteRun quote
  if closed then return parts.flatten ++ last else failure

/-- A string in any of the four forms. -/
def string : Scan Chars := do
  if ← startsWith "\"\"\"" then longString '"' basicPart
  else if ← startsWith "'''" then longString '\'' literalPart
  else basicString <|> literalString

/-! ## Keys -/

/-- A character of a key without quotes. -/
def isBareKey (c : Char) : Bool := c.isAlphanum || c == '_' || c == '-'

/-- One part of a key. -/
def keyPart : Scan String :=
  String.ofList <$> (basicString <|> literalString <|> span1 isBareKey)

/-- The number of parts that no key has. -/
def mostParts : Nat := 80

/-- A key: parts between dots. -/
def key : Scan (List String) := do
  let first ← keyPart
  let others ← many do
    gap
    char '.'
    gap
    keyPart
  if others.length + 1 < mostParts then return first :: others else failure

/-! ## Numbers, dates and times -/

/-- Digits of a class with underscores between them, the underscores taken out. -/
def digitsOf (p : Char → Bool) : Scan Chars := do
  let first ← span1 p
  let others ← many do
    char '_'
    span1 p
  return first ++ others.flatten

/-- Decimal digits without a leading zero. -/
def strictDigits : Scan Chars := do
  let digits ← digitsOf Char.isDigit
  -- only zero itself starts with a zero
  if digits.head? == some '0' && digits.length != 1 then failure else return digits

/-- A sign. -/
def sign : Scan Chars := do
  let s ← Scan.optional (one fun c => c == '+' || c == '-')
  return s.toList

/-- A whole number in decimal digits. -/
def decimalInteger : Scan Datum := do
  let s ← sign
  let digits ← strictDigits
  match Datum.readSigned? (s ++ digits) with
  | some n => return .integer n
  | none => failure

/-- A whole number in a base given by a mark. -/
def baseInteger (mark : String) (base : Nat) (p : Char → Bool) : Scan Datum := do
  word mark
  let digits ← digitsOf p
  let n := digits.foldl (fun n c => base * n + (hexValue? c).getD 0) 0
  if Datum.fitsSigned n then return .integer n else failure

/-- An exponent. -/
def exponent : Scan Chars := do
  let _ ← one fun c => c == 'e' || c == 'E'
  let s ← sign
  let digits ← digitsOf Char.isDigit
  return 'e' :: (s ++ digits)

/-- The digits after a point. -/
def fraction : Scan Chars := do
  char '.'
  let digits ← digitsOf Char.isDigit
  return '.' :: digits

/-- A float with a fraction, an exponent or both. -/
def decimalFloat : Scan Datum := do
  let s ← sign
  let whole ← strictDigits
  let tail ← (do return (← fraction) ++ ((← Scan.optional exponent).getD [])) <|> exponent
  match Decimal.readFloat? (s ++ whole ++ tail) with
  -- a positive number has to have a float near it, a negative one may be too large
  | some (.infinity false) => failure
  | some x => return .float x
  | none => failure

/-- A float in words. -/
def floatWord : Scan Datum := do
  let s ← sign
  (do word "inf"; return .float (.infinity (s == ['-']))) <|>
    (do word "nan"; return .float .notANumber)

/-- A truth value. -/
def truth : Scan Datum :=
  (do word "true"; return .bool true) <|> (do word "false"; return .bool false)

/-- So many digits, as a number. -/
def fixedDigits (count : Nat) : Scan Nat := fun cs =>
  let digits := cs.take count
  if digits.length = count ∧ digits.all Char.isDigit then
    some (Decimal.digitsValue 0 digits, cs.drop count)
  else none

/-- The days of a month. -/
def daysIn (year month : Nat) : Nat :=
  if month = 2 then
    if year % 4 = 0 ∧ (year % 100 ≠ 0 ∨ year % 400 = 0) then 29 else 28
  else if month ∈ [4, 6, 9, 11] then 30
  else 31

/-- A date. -/
def date : Scan Unit := do
  let year ← fixedDigits 4
  char '-'
  let month ← fixedDigits 2
  char '-'
  let day ← fixedDigits 2
  if 1 ≤ month ∧ month ≤ 12 ∧ 1 ≤ day ∧ day ≤ daysIn year month then return () else failure

/-- A time of day. -/
def time : Scan Unit := do
  let hour ← fixedDigits 2
  char ':'
  let minute ← fixedDigits 2
  char ':'
  let second ← fixedDigits 2
  let _ ← Scan.optional do
    char '.'
    span1 Char.isDigit
  if hour ≤ 23 ∧ minute ≤ 59 ∧ second ≤ 60 then return () else failure

/-- The offset of a time from universal time. -/
def timeOffset : Scan Unit :=
  (do let _ ← one fun c => c == 'Z' || c == 'z') <|> do
    let _ ← one fun c => c == '+' || c == '-'
    let hour ← fixedDigits 2
    char ':'
    let minute ← fixedDigits 2
    if hour ≤ 23 ∧ minute ≤ 59 then return () else failure

/-- A date and time, a date or a time. -/
def moment : Scan Unit :=
  time <|> do
    date
    let _ ← Scan.optional do
      let _ ← one fun c => c == 'T' || c == 't' || c == ' '
      time
      Scan.optional timeOffset

/-- A date or a time, kept as it is written. -/
def momentText : Scan Datum := fun cs =>
  (moment cs).map fun (_, rest) =>
    (.text (String.ofList (cs.take (cs.length - rest.length))), rest)

/-- A number, a truth value, a date or a time. -/
def plainValue : Scan Datum :=
  -- a form that begins like another comes first: dates and floats before whole numbers
  momentText <|> truth <|> floatWord <|>
    baseInteger "0x" 16 (fun c => (hexValue? c).isSome) <|>
    baseInteger "0o" 8 (fun c => decide ('0' ≤ c) && decide (c ≤ '7')) <|>
    baseInteger "0b" 2 (fun c => c == '0' || c == '1') <|> decimalFloat <|> decimalInteger

/-! ## Arrays and inline tables -/

/-- Tables of an inline table: an entry of a dotted key goes into a table of its own, which only
dotted keys of the same inline table may add to. -/
inductive Inline where
  | value (d : Datum)
  | dotted (entries : List (String × Inline))

/-- The entries with one more at a dotted key, unless something is there already. -/
def addInline (entries : List (String × Inline)) (d : Datum) :
    List String → Option (List (String × Inline))
  | [] => none
  | [name] =>
    if (entries.lookup name).isSome then none else some (entries ++ [(name, .value d)])
  | name :: names =>
    match entries.lookup name with
    | none => (addInline [] d names).map fun inner => entries ++ [(name, .dotted inner)]
    | some (.value _) => none
    | some (.dotted inner) =>
      (addInline inner d names).map fun inner =>
        entries.map fun e => if e.1 == name then (name, .dotted inner) else e

mutual

/-- The datum of an entry of an inline table. -/
def Inline.datum : Inline → Datum
  | .value d => d
  | .dotted entries => .table (inlineEntries entries)
termination_by structural i => i

/-- The data of the entries of an inline table. -/
def inlineEntries : List (String × Inline) → List (String × Datum)
  | [] => []
  | (name, i) :: rest => (name, i.datum) :: inlineEntries rest
termination_by structural entries => entries

end

/-- The items of an array and its closing bracket; a comma may follow the last item. -/
def arrayItems (value : Scan Datum) : Scan (List Datum) := do
  filler
  let items ← (do
    let first ← value
    let others ← many do
      filler
      char ','
      filler
      value
    filler
    let _ ← Scan.optional (char ',')
    filler
    return first :: others) <|> pure []
  char ']'
  return items

/-- An entry of an inline table. -/
def inlineEntry (value : Scan Datum) : Scan (List String × Datum) := do
  gap
  let k ← key
  gap
  char '='
  gap
  let v ← value
  gap
  return (k, v)

/-- The entries of an inline table and its closing brace. -/
def inlineTable (value : Scan Datum) : Scan (List (String × Datum)) := do
  gap
  if ← startsWith "\x7d" then
    char '}'
    return []
  else
    let first ← inlineEntry value
    let others ← many do
      char ','
      inlineEntry value
    char '}'
    match (first :: others).foldlM (fun es (k, v) => addInline es v k) [] with
    | some entries => return inlineEntries entries
    | none => failure

/-- How deep arrays and inline tables may be nested. -/
def deepest : Nat := 79

/-- A value that is no array and no inline table. -/
def scalar : Scan Datum := do
  match ← peek? with
  | some '"' | some '\'' => return .text (String.ofList (← string))
  | _ => plainValue

/-- A value, with arrays and inline tables nested at most `depth` deep. -/
def value : (depth : Nat) → Scan Datum
  | 0 => scalar
  | depth + 1 => do
    match ← peek? with
    | some '[' =>
      char '['
      return .list (← arrayItems (value depth))
    | some '{' =>
      char '{'
      return .table (← inlineTable (value depth))
    | _ => scalar

end Stencil.Toml
