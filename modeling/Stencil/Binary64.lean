/-!
# Stencil — binary floating point numbers

A float is a sign and a magnitude code. Codes count the magnitudes of a format upwards from zero:
below `unit` they are multiples of the least unit, and each further block of `unit` codes doubles
the step. The code of a magnitude `m · 2^q` is therefore `(q - least q) · unit + m`, and a
significand that rounds up to the next power of two carries into the next block by itself.

* `FloatFormat.nearest` — the code nearest to a quotient; a tie goes to the even code.
* `FloatFormat.decode`  — significand and exponent of a code.
* `Binary64`            — the finite floats of 64 bits, told apart by sign and code.
* `Extended`            — those, the infinities and the value that is no number.

Everything is exact arithmetic on natural numbers.
-/

namespace Stencil

/-- A binary floating point format. -/
structure FloatFormat where
  /-- Bits of a significand. -/
  precision     : Nat
  /-- The exponent of the least unit. -/
  leastExponent : Int
  /-- The code of infinity: one past the greatest finite magnitude. -/
  infinity      : Nat

namespace FloatFormat

/-- The format of 64 bits. -/
def binary64 : FloatFormat := ⟨53, -1074, 0x7ff0000000000000⟩

/-- The format of 32 bits. -/
def binary32 : FloatFormat := ⟨24, -149, 0x7f800000⟩

/-- The number of codes that share one exponent. -/
def unit (f : FloatFormat) : Nat := Nat.pow 2 (f.precision - 1)

/-- Significand and exponent of the magnitude with the given code. -/
def decode (f : FloatFormat) (code : Nat) : Nat × Int :=
  -- magnitudes below the first full block have no leading one
  if code < f.unit then (code, f.leastExponent)
  else (f.unit + code % f.unit, f.leastExponent + (code / f.unit : Nat) - 1)

end FloatFormat

/-- The quotient `num / den` to the nearest natural number, a tie to the even one. -/
def divHalfEven (num den : Nat) : Nat :=
  let quotient := num / den
  let twice := 2 * (num % den)
  if twice < den then quotient
  else if den < twice then quotient + 1
  else quotient + quotient % 2

/-- Numerator and denominator of `num / den · 2^q`. -/
def scaleRatio (num den : Nat) (q : Int) : Nat × Nat :=
  if 0 ≤ q then (num * Nat.pow 2 q.toNat, den) else (num, den * Nat.pow 2 (-q).toNat)

namespace FloatFormat

/-- The code nearest to `num / den`, a tie to the even code. Past the greatest finite magnitude the
code is that of infinity or more. -/
def nearest (f : FloatFormat) (num den : Nat) : Nat :=
  if num = 0 then 0
  else
    -- scaled down by the guess, the quotient has one bit too many at most
    let guess := max f.leastExponent ((num.log2 : Int) - den.log2 - f.precision)
    let (n, d) := scaleRatio num den (-guess)
    let exponent := if Nat.pow 2 f.precision ≤ n / d then guess + 1 else guess
    let (n, d) := scaleRatio num den (-exponent)
    -- a significand that rounds up to a power of two carries into the next block
    (exponent - f.leastExponent).toNat * f.unit + divHalfEven n d

/-- The code nearest to `digits · 10^exponent`. Magnitudes far outside of every format are not
worked out. -/
def nearestDecimal (f : FloatFormat) (digits : Nat) (exponent : Int) : Nat :=
  let size : Int := exponent + (Nat.toDigits 10 digits).length
  if digits = 0 ∨ size < -400 then 0
  else if 400 < size then f.infinity
  else if 0 ≤ exponent then f.nearest (digits * Nat.pow 10 exponent.toNat) 1
  else f.nearest digits (Nat.pow 10 (-exponent).toNat)

end FloatFormat

/-- A finite float of 64 bits. -/
structure Binary64 where
  negative  : Bool
  magnitude : Fin FloatFormat.binary64.infinity
  deriving DecidableEq

/-- A float of 64 bits. -/
inductive Extended where
  | finite (x : Binary64)
  | infinity (negative : Bool)
  | notANumber
  deriving DecidableEq

namespace Extended

/-- The float with the given sign and magnitude code. -/
def ofCode (negative : Bool) (code : Nat) : Extended :=
  if h : code < FloatFormat.binary64.infinity then finite ⟨negative, ⟨code, h⟩⟩
  else infinity negative

/-- The float with the given sign nearest to `num / den · 2^q`. -/
def ofRatio (negative : Bool) (num den : Nat) (q : Int) : Extended :=
  let (n, d) := scaleRatio num den q
  ofCode negative (FloatFormat.binary64.nearest n d)

/-- The float with the given sign whose magnitude has the given code among the floats of 32 bits.
Each of those is a float of 64 bits too. -/
def ofSingleCode (negative : Bool) (code : Nat) : Extended :=
  if code < FloatFormat.binary32.infinity then
    let (m, q) := FloatFormat.binary32.decode code
    ofRatio negative m 1 q
  else infinity negative

/-- The finite value, when there is one. -/
def finite? : Extended → Option Binary64
  | finite x => some x
  | _ => none

end Extended

namespace Binary64

/-- Significand and exponent of the magnitude. -/
def parts (x : Binary64) : Nat × Int := FloatFormat.binary64.decode x.magnitude

/-- Whether the magnitude is zero. -/
def isZero (x : Binary64) : Bool := x.magnitude.val == 0

/-- Equality of numbers: the two zeros are the same number. -/
def same (x y : Binary64) : Bool :=
  x.magnitude == y.magnitude && (x.negative == y.negative || x.isZero)

/-- The natural number `n`, rounded to a float. -/
def ofNat (negative : Bool) (n : Nat) : Extended := Extended.ofRatio negative n 1 0

/-- The product, rounded once. -/
def mul (x y : Binary64) : Extended :=
  let (m, q) := x.parts
  let (n, r) := y.parts
  Extended.ofRatio (x.negative != y.negative) (m * n) 1 (q + r)

/-- The quotient by a float other than zero, rounded once. -/
def div (x y : Binary64) : Extended :=
  let (m, q) := x.parts
  let (n, r) := y.parts
  Extended.ofRatio (x.negative != y.negative) m n (q - r)

end Binary64

namespace Extended

/-- The greatest count that 64 bits hold. -/
def greatestCount : Nat := Nat.pow 2 64 - 1

/-- The nearest natural number, a half going up, kept within the counts that 64 bits hold. Negative
values and the value that is no number give zero. -/
def toCount : Extended → Nat
  | notANumber => 0
  | infinity negative => if negative then 0 else greatestCount
  | finite x =>
    if x.negative then 0
    else
      let (num, den) := scaleRatio x.parts.1 1 x.parts.2
      min ((2 * num + den) / (2 * den)) greatestCount

end Extended

end Stencil
