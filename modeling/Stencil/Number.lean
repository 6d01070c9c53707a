import Stencil.Decimal.Shortest

/-!
# Stencil — numbers

A number is an integer or a float, and the two never equal each other: `1` and `1.0` are different
values with different texts. Integers are written in full. A float is written with the fewest digits
that read back, plainly while its first digit stands between the fifth decimal place and the
sixteenth place before the point, and with an exponent otherwise.
-/

namespace Stencil

open Decimal

/-- A number of a document or a template value. -/
inductive Number where
  | integer (value : Int)
  | float (value : Binary64)
  deriving DecidableEq

/-- How floats are written. -/
structure FloatStyle where
  /-- The least power of ten of a first digit that is written plainly. -/
  leastPlain    : Int
  /-- The greatest power of ten of a first digit that is written plainly. -/
  greatestPlain : Int

/-- Plain from `0.00001` up to sixteen places before the point. -/
def FloatStyle.standard : FloatStyle := ⟨-5, 15⟩

namespace FloatStyle

/-- Digits written plainly, always with a fraction. -/
def plain (d : Digits) : String :=
  if d.leading < 0 then
    "0." ++ String.ofList (List.replicate (-d.leading - 1).toNat '0' ++ d.digits)
  else
    let places := d.leading.toNat + 1
    let whole := d.digits.take places ++ List.replicate (places - d.digits.length) '0'
    let part := d.digits.drop places
    String.ofList whole ++ "." ++ (if part.isEmpty then "0" else String.ofList part)

/-- Digits written with an exponent, whose sign always shows. -/
def scientific (d : Digits) : String :=
  let part := d.digits.drop 1
  let significand :=
    String.ofList (d.digits.take 1) ++ (if part.isEmpty then "" else "." ++ String.ofList part)
  significand ++ (if d.leading < 0 then "e-" else "e+") ++ toString d.leading.natAbs

/-- The text of a float. -/
def write (style : FloatStyle) (x : Binary64) : String :=
  let d := shortest .binary64 x.magnitude
  (if x.negative then "-" else "") ++
    (if style.leastPlain ≤ d.leading ∧ d.leading ≤ style.greatestPlain then plain d
     else scientific d)

end FloatStyle

namespace Number

/-- The text of a number. -/
def text : Number → String
  | integer n => toString n
  | float x   => FloatStyle.standard.write x

/-- Equality of numbers: an integer is never a float, and the two float zeros are equal. -/
def same : Number → Number → Bool
  | integer m, integer n => m == n
  | float x, float y     => x.same y
  | _, _                 => false

end Number

end Stencil
