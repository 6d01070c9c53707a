import Stencil.Binary64

/-!
# Stencil — reading decimals

Two readers, for two kinds of text.

* `readFloat?` — the text of a number alone: a sign, digits with or without a point, an exponent, or
  one of the words for infinity and for no number. It rounds once, to the nearest float.
* `scaled?`    — digits that were collected as a natural number, times a power of ten. It rounds the
  digits, then multiplies or divides by powers of ten that are floats themselves, rounding after
  each step. An overflow is no number at all.

`readInteger?` reads whole numbers, with a sign and leading zeros if there are any.
-/

namespace Stencil.Decimal

/-- The natural number with the given decimal digits, `start` being read already. -/
def digitsValue (start : Nat) (cs : List Char) : Nat :=
  cs.foldl (fun n c => 10 * n + (c.toNat - '0'.toNat)) start

/-- Reads decimal digits to the end; there has to be one. -/
def readNat? (cs : List Char) : Option Nat :=
  if !cs.isEmpty && cs.all Char.isDigit then some (digitsValue 0 cs) else none

/-- A sign and what it stands before: whether it is a minus, and the rest. -/
def readSign : List Char → Bool × List Char
  | '-' :: cs => (true, cs)
  | '+' :: cs => (false, cs)
  | cs => (false, cs)

/-- Reads a whole number to the end. -/
def readInteger? (cs : List Char) : Option Int :=
  let (negative, digits) := readSign cs
  (readNat? digits).map fun n => if negative then -(n : Int) else n

/-- Reads the exponent mark and an exponent to the end; nothing at all is the exponent zero. -/
def readExponent? : List Char → Option Int
  | [] => some 0
  | c :: cs => if c == 'e' || c == 'E' then readInteger? cs else none

/-- Reads digits with or without a point and an exponent: all digits as one number, and the power
of ten it is scaled by. -/
def readDecimal? (cs : List Char) : Option (Nat × Int) :=
  let whole := cs.takeWhile Char.isDigit
  let afterWhole := cs.dropWhile Char.isDigit
  let (part, rest) := match afterWhole with
    -- a point needs digits on one side only
    | '.' :: r => (r.takeWhile Char.isDigit, r.dropWhile Char.isDigit)
    | r => ([], r)
  if whole.isEmpty && part.isEmpty then none
  else
    (readExponent? rest).map fun exponent =>
      (digitsValue 0 (whole ++ part), exponent - part.length)

/-- The words that stand for values no digits can write. -/
def readWord? (negative : Bool) (cs : List Char) : Option Extended :=
  match String.ofList (cs.map Char.toLower) with
  | "inf" | "infinity" => some (.infinity negative)
  | "nan" => some .notANumber
  | _ => none

/-- Reads the text of a float of 64 bits. -/
def readFloat? (cs : List Char) : Option Extended :=
  let (negative, magnitude) := readSign cs
  match readWord? negative magnitude with
  | some x => some x
  | none =>
    (readDecimal? magnitude).map fun (digits, exponent) =>
      .ofCode negative (FloatFormat.binary64.nearestDecimal digits exponent)

/-- Reads the text of a float of 32 bits, as a float of 64 bits. -/
def readSingle? (cs : List Char) : Option Extended :=
  let (negative, magnitude) := readSign cs
  match readWord? negative magnitude with
  | some x => some x
  | none =>
    (readDecimal? magnitude).map fun (digits, exponent) =>
      .ofSingleCode negative (FloatFormat.binary32.nearestDecimal digits exponent)

/-- The greatest power of ten that is a float. -/
def greatestPower : Nat := 308

/-- The float nearest to `10^n`. -/
def powerOfTen (n : Nat) : Extended := Binary64.ofNat false (Nat.pow 10 n)

/-- `x · 10^exponent`, one power of ten at a time. -/
def scaleBy? (x : Binary64) (exponent : Int) : Option Binary64 :=
  if exponent.natAbs ≤ greatestPower then do
    let power ← (powerOfTen exponent.natAbs).finite?
    (if 0 ≤ exponent then x.mul power else x.div power).finite?
  else if x.isZero then some x
  -- the digits are at least one, so a greater power overflows
  else if _h : 0 ≤ exponent then none
  else do
    -- a smaller magnitude is reached in strides, each rounded
    let power ← (powerOfTen greatestPower).finite?
    let y ← (x.div power).finite?
    scaleBy? y (exponent + greatestPower)
termination_by exponent.natAbs
decreasing_by simp only [greatestPower] at *; omega

/-- `digits · 10^exponent` by steps, or nothing when it is too great for a float. -/
def scaled? (negative : Bool) (digits : Nat) (exponent : Int) : Option Binary64 := do
  let x ← (Binary64.ofNat negative digits).finite?
  scaleBy? x exponent

end Stencil.Decimal
