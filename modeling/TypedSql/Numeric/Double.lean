import TypedSql.Numeric.Rounding

/-!
# Sixty-four bit floating-point numbers

A `Double` is its bit pattern: a sign, eleven exponent bits and fifty-two significand bits. Two of
them are equal when their patterns are, so `-0` and `0` differ and a NaN equals itself. Whole
numbers and numbers of narrower formats are converted by exact rounding.
-/

namespace TypedSql

/-- A floating-point number, given by its sixty-four bits. -/
structure Double where
  bits : UInt64
  deriving DecidableEq, Repr

namespace Double

/-- Assemble a sign and the sixty-three bits below it. -/
def ofSignAndBits (negative : Bool) (low : Nat) : Double :=
  ⟨UInt64.ofNat (if negative then twoPow 63 + low else low)⟩

/-- The infinity of a sign. -/
def infinity (negative : Bool) : Double :=
  ofSignAndBits negative (2047 * twoPow 52)

/-- The quiet NaN of a sign. -/
def nan (negative : Bool) : Double :=
  ofSignAndBits negative (2047 * twoPow 52 + twoPow 51)

/--
The bits of a magnitude of the format: without the leading bit it is subnormal and its exponent
field is zero, else the field counts from the least exponent.
-/
def ofDyadic (negative : Bool) (x : Dyadic) : Double :=
  if x.significand < twoPow 52 then
    ofSignAndBits negative x.significand
  else
    ofSignAndBits negative ((x.exponent + 1075).toNat * twoPow 52 + (x.significand - twoPow 52))

/-- The nearest number to `n / d` with a sign; beyond the largest finite number an infinity. -/
def ofQuotient (negative : Bool) (n d : Nat) : Double :=
  match BinaryFormat.double.round n d with
  | some x => ofDyadic negative x
  | none => infinity negative

/-- The nearest number to a whole number, a tie to the even significand. -/
def ofInt (n : Int) : Double :=
  ofQuotient (n < 0) n.natAbs 1

/-- The value of a magnitude of a format with at most the same precision and range. -/
def widen (negative : Bool) (x : Dyadic) : Double :=
  ofQuotient negative x.quotient.1 x.quotient.2

/-- The sign bit is set. -/
def isNegative (x : Double) : Bool :=
  twoPow 63 ≤ x.bits.toNat

/-- The magnitude of a finite number; nothing for an infinity or a NaN. -/
def magnitude? (x : Double) : Option Dyadic :=
  let low := x.bits.toNat % twoPow 63
  let field : Nat := low / twoPow 52
  let fraction := low % twoPow 52
  if field = 2047 then none
  else if field = 0 then some ⟨fraction, -1074⟩
  else some ⟨twoPow 52 + fraction, (field : Int) - 1075⟩

end Double

end TypedSql
