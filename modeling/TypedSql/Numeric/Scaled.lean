import TypedSql.Numeric.Decimal

/-!
# Scaled digits

A number with many digits or a power of ten can be read in two roundings: its digits make a whole
number, which is rounded, and that is multiplied or divided by a rounded power of ten, which rounds
once more. Only the digits that fit into sixty-four bits take part. `Scaled.value?` reads in this
way; its answer can differ in the last bits from the exact reading of `Decimal.round`.
-/

namespace TypedSql

/-- The digits of a number and a power of ten: `significand * 10 ^ exponent`. -/
structure Scaled where
  significand : Nat
  exponent : Int

namespace Scaled

/--
Append digits to a significand as long as it stays below `2 ^ 64`; the answer includes how many
digits were appended.
-/
def gather (significand : Nat) : List Char → Nat × Nat
  | [] => (significand, 0)
  | c :: cs =>
    let next := 10 * significand + Decimal.digitValue c
    if next < twoPow 64 then
      let (s, n) := gather next cs
      (s, n + 1)
    else (significand, 0)

/--
The digits before and after a point. From the first whole digit for which there is no room, the
whole digits only raise the power of ten; the digits after the point are then tried anew, and left
out from the first one for which there is no room.
-/
def ofDigits (whole fraction : List Char) (exponent : Int) : Scaled :=
  let (s, n) := gather 0 whole
  let (s, m) := gather s fraction
  ⟨s, exponent + (whole.length - n) - m⟩

/-- A power of ten, rounded. -/
def powerOfTen (n : Nat) : Option Dyadic :=
  BinaryFormat.double.round (tenPow n) 1

/--
The value of scaled digits, or nothing when it is too large. A divisor beyond the largest power of
ten of the format is applied in two steps.
-/
def value? (x : Scaled) : Option Dyadic := do
  let s ← BinaryFormat.double.round x.significand 1
  if x.significand = 0 then
    return s
  else if 0 ≤ x.exponent then
    if x.exponent ≤ 308 then BinaryFormat.double.mul s (← powerOfTen x.exponent.toNat) else none
  else if -308 ≤ x.exponent then
    BinaryFormat.double.div s (← powerOfTen (-x.exponent).toNat)
  else if -616 ≤ x.exponent then
    let t ← BinaryFormat.double.div s (← powerOfTen 308)
    BinaryFormat.double.div t (← powerOfTen (-x.exponent - 308).toNat)
  else
    return ⟨0, BinaryFormat.double.minExponent⟩

end Scaled

end TypedSql
