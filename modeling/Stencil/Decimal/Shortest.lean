import Stencil.Binary64

/-!
# Stencil — shortest decimal digits

Every decimal between the two midpoints around a float reads back as that float; the midpoints
themselves do when the significand is even. Among those decimals the ones with the fewest digits
are sought, and of these the one nearest to the float, a tie going to the even digit.

The search tries grids of one digit, two digits, and so on. If any point of a grid lies between the
midpoints then so does one of the two grid points next to the float, so only those are looked at.
Seventeen digits always suffice.
-/

namespace Stencil.Decimal

/-- A magnitude with its midpoints, in quarters of the step: the magnitude is `4m` quarters, and a
quarter is `2^q`. -/
structure Interval where
  low    : Nat
  middle : Nat
  high   : Nat
  /-- Whether the midpoints read back too. -/
  closed : Bool
  /-- The exponent of a quarter. -/
  quarter : Int

/-- The interval of decimals that read back as the magnitude with the given code. Just above a power
of two the step below is half the step above. -/
def interval (f : FloatFormat) (code : Nat) : Interval :=
  let (m, q) := f.decode code
  let narrow := m == f.unit && decide (f.leastExponent < q)
  { low := 4 * m - (if narrow then 1 else 2)
    middle := 4 * m
    high := 4 * m + 2
    closed := m % 2 == 0
    quarter := q - 2 }

/-- The sizes of a quarter and of a grid step `10^t` in one common unit. -/
def commonUnit (quarter t : Int) : Nat × Nat :=
  (Nat.pow 2 quarter.toNat * Nat.pow 10 (-t).toNat, Nat.pow 10 t.toNat * Nat.pow 2 (-quarter).toNat)

/-- Whether `k · 10^t` lies in the interval. -/
def Interval.holds (i : Interval) (t : Int) (k : Nat) : Bool :=
  let (u, g) := commonUnit i.quarter t
  if i.closed then decide (i.low * u ≤ k * g) && decide (k * g ≤ i.high * u)
  else decide (i.low * u < k * g) && decide (k * g < i.high * u)

/-- The multiple of `10^t` just below the magnitude, or on it. -/
def Interval.below (i : Interval) (t : Int) : Nat :=
  let (u, g) := commonUnit i.quarter t
  i.middle * u / g

/-- The multiple of `10^t` in the interval that is nearest to the magnitude. -/
def Interval.pick? (i : Interval) (t : Int) : Option Nat :=
  let (u, g) := commonUnit i.quarter t
  let k := i.below t
  match i.holds t k, i.holds t (k + 1) with
  | false, false => none
  | true, false => some k
  | false, true => some (k + 1)
  | true, true =>
    -- both neighbours read back, so the nearer one counts
    let twice := 2 * (i.middle * u - k * g)
    some (if twice < g then k else if g < twice then k + 1 else k + k % 2)

/-- The power of ten of the first digit of `m · 2^q`, for `m` other than zero. The guess from the
binary length is off by at most one. -/
def leadingPower (m : Nat) (q : Int) : Int :=
  -- the fraction is the logarithm of two to the base ten
  let guess := ((m.log2 : Int) + q) * 30103 / 100000
  let atLeast (e : Int) : Bool :=
    let (u, g) := commonUnit q e
    decide (g ≤ m * u)
  if !atLeast guess then guess - 1 else if atLeast (guess + 1) then guess + 1 else guess

/-- Digits without trailing zeros, and the power of ten of the first one. -/
structure Digits where
  digits  : List Char
  leading : Int
  deriving DecidableEq, Repr

/-- The digits of `k · 10^t`. -/
def Digits.ofScaled (k : Nat) (t : Int) : Digits :=
  let all := Nat.toDigits 10 k
  let kept := (all.reverse.dropWhile (· == '0')).reverse
  ⟨if kept.isEmpty then ['0'] else kept, t + all.length - 1⟩

/-- The fewest digits that read back as the magnitude with the given code. -/
def shortest (f : FloatFormat) (code : Nat) : Digits :=
  let (m, q) := f.decode code
  if m = 0 then ⟨['0'], 0⟩
  else
    let i := interval f code
    let top := leadingPower m q
    let grids := (List.range 17).map fun (n : Nat) => top - (n : Int)
    match grids.findSome? fun t => (i.pick? t).map fun k => (k, t) with
    | some (k, t) => .ofScaled k t
    -- not reached, as the finest grid is finer than the interval
    | none => .ofScaled (i.below (top - 16)) (top - 16)

end Stencil.Decimal
