import TypedSql.Numeric.Double

/-!
# Decimal notation of floating-point numbers

`Decimal` is a number written as digits and a power of ten. Reading accepts an optional sign, digits
with an optional point, and an optional exponent; the value is rounded exactly once, to the format
that is asked for. The names of infinity and NaN are read in any mix of cases.
-/

namespace TypedSql

/-- The number `digits * 10 ^ exponent`. -/
structure Decimal where
  digits : Nat
  exponent : Int
  deriving DecidableEq, Repr

namespace Decimal

/-- The value of a digit. -/
def digitValue (c : Char) : Nat :=
  c.toNat - '0'.toNat

/-- The whole number that a run of digits writes. -/
def natOfDigits (cs : List Char) : Nat :=
  cs.foldl (fun n c => 10 * n + digitValue c) 0

/-- Split an optional sign from a text; the flag says whether it was a minus. -/
def splitSign : List Char → Bool × List Char
  | '-' :: cs => (true, cs)
  | '+' :: cs => (false, cs)
  | cs => (false, cs)

/-- The exponent part of a number: nothing at all, or `e` with an optionally signed whole number. -/
def readExponent? : List Char → Option Int
  | [] => some 0
  | c :: cs =>
    let (negative, ds) := splitSign cs
    if c.toLower = 'e' ∧ ds ≠ [] ∧ ds.all Char.isDigit then
      some (if negative then -(natOfDigits ds : Int) else natOfDigits ds)
    else
      none

/-- Read an unsigned number with at least one digit before or after the point. -/
def read? (cs : List Char) : Option Decimal :=
  let whole := cs.takeWhile Char.isDigit
  let rest := cs.dropWhile Char.isDigit
  let (fraction, tail) :=
    match rest with
    | '.' :: more => (more.takeWhile Char.isDigit, more.dropWhile Char.isDigit)
    | _ => ([], rest)
  if whole ++ fraction = [] then
    none
  else
    (readExponent? tail).map fun e => ⟨natOfDigits (whole ++ fraction), e - fraction.length⟩

/--
The number of a format nearest to a decimal, or nothing when it is too large. Far outside the range
of every format the answer is known without expanding the power of ten.
-/
def round (f : BinaryFormat) (x : Decimal) : Option Dyadic :=
  let places := (Nat.toDigits 10 x.digits).length + x.exponent
  if x.digits = 0 ∨ places < -400 then some ⟨0, f.minExponent⟩
  else if 400 < places then none
  else if 0 ≤ x.exponent then f.round (x.digits * tenPow x.exponent.toNat) 1
  else f.round x.digits (tenPow (-x.exponent).toNat)

end Decimal

/--
Read a floating-point number: a decimal rounded to the given format and then widened, an infinity,
or a NaN.
-/
def Double.read? (f : BinaryFormat) (text : String) : Option Double :=
  let (negative, cs) := Decimal.splitSign text.toList
  let name := String.ofList (cs.map Char.toLower)
  if name = "nan" then some (.nan negative)
  else if name = "inf" ∨ name = "infinity" then some (.infinity negative)
  else
    (Decimal.read? cs).map fun x =>
      match x.round f with
      | some m => .widen negative m
      | none => .infinity negative

end TypedSql
