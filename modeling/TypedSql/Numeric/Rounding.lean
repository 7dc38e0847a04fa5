/-!
# Rounding to a binary floating-point format

A format holds the numbers `m * 2 ^ e` whose significand `m` fits into a fixed number of bits and
whose exponent `e` lies in a fixed range. `BinaryFormat.round` takes a quotient of natural numbers
to the nearest of them, a tie to the even significand, in exact arithmetic.
-/

namespace TypedSql

/-- A power of two. -/
def twoPow (n : Nat) : Nat :=
  Nat.pow 2 n

/-- A power of ten. -/
def tenPow (n : Nat) : Nat :=
  Nat.pow 10 n

/-- The quotient rounded to the nearest whole number, a tie to the even one. -/
def divHalfEven (n d : Nat) : Nat :=
  let q := n / d
  let r := n % d
  if 2 * r < d then q else if d < 2 * r then q + 1 else q + q % 2

/-- The number `significand * 2 ^ exponent`. -/
structure Dyadic where
  significand : Nat
  exponent : Int
  deriving DecidableEq, Repr

/-- A format: the number of significand bits and the range of the exponent of the last bit. -/
structure BinaryFormat where
  precision : Nat
  minExponent : Int
  maxExponent : Int

namespace BinaryFormat

/-- Thirty-two bit numbers: 24 significand bits. -/
def single : BinaryFormat := ⟨24, -149, 104⟩

/-- Sixty-four bit numbers: 53 significand bits. -/
def double : BinaryFormat := ⟨53, -1074, 971⟩

/-- The numerator and denominator of `n / d` after division by `2 ^ e`. -/
def rescale (n d : Nat) (e : Int) : Nat × Nat :=
  if 0 ≤ e then (n, d * twoPow e.toNat) else (n * twoPow (-e).toNat, d)

/--
The exponent at which `n / d` has its last significand bit: the least allowed one that leaves the
whole part of the quotient within the precision.
-/
def unitExponent (f : BinaryFormat) (n d : Nat) : Int :=
  let e := (n.log2 : Int) - d.log2 - f.precision
  let (a, b) := rescale n d e
  max f.minExponent (if a < twoPow f.precision * b then e else e + 1)

/-- The number of the format nearest to `n / d`, or nothing when that is too large for it. -/
def round (f : BinaryFormat) (n d : Nat) : Option Dyadic :=
  if n = 0 then
    some ⟨0, f.minExponent⟩
  else
    let e := f.unitExponent n d
    let (a, b) := rescale n d e
    let m := divHalfEven a b
    let r : Dyadic := if m = twoPow f.precision then ⟨twoPow (f.precision - 1), e + 1⟩ else ⟨m, e⟩
    if r.exponent ≤ f.maxExponent then some r else none

end BinaryFormat

/-- The number as a numerator and a denominator. -/
def Dyadic.quotient (x : Dyadic) : Nat × Nat :=
  BinaryFormat.rescale x.significand 1 (-x.exponent)

namespace BinaryFormat

/-- The product of two numbers, rounded. -/
def mul (f : BinaryFormat) (x y : Dyadic) : Option Dyadic :=
  let (a, b) := x.quotient
  let (c, d) := y.quotient
  f.round (a * c) (b * d)

/-- The quotient of two numbers, rounded; the divisor is positive. -/
def div (f : BinaryFormat) (x y : Dyadic) : Option Dyadic :=
  let (a, b) := x.quotient
  let (c, d) := y.quotient
  f.round (a * d) (b * c)

end BinaryFormat

end TypedSql
