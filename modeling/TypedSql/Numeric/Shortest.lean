import TypedSql.Numeric.Decimal

/-!
# Shortest decimal text of a floating-point number

The decimal written for a finite number has the fewest digits that read back as the number, and of
those the nearest to it. `Dyadic.shortest` finds it on the grids of the powers of ten, from the
coarsest down: on each grid only the two neighbours of the number can read back.
-/

namespace TypedSql

namespace Dyadic

/--
The reals that round to a positive number of the double format, in units of `2 ^ (exponent - 2)`:
the lower end, the number itself and the upper end. Below a power of two the spacing halves.
-/
def roundingInterval (x : Dyadic) : Nat × Nat × Nat :=
  let m := 4 * x.significand
  let lower := if x.significand = twoPow 52 ∧ -1074 < x.exponent then m - 1 else m - 2
  (lower, m, m + 2)

/-- Compare `a * 2 ^ e` with `c * 10 ^ k` as whole numbers on a common scale. -/
def onCommonScale (a : Nat) (e : Int) (c : Nat) (k : Int) : Nat × Nat :=
  (a * twoPow e.toNat * tenPow (-k).toNat, c * tenPow k.toNat * twoPow (-e).toNat)

/-- The decimal `c * 10 ^ k` lies in the rounding interval, whose ends count for an even number. -/
def readsBack (x : Dyadic) (c : Nat) (k : Int) : Bool :=
  let (lower, _, upper) := x.roundingInterval
  let (l, dl) := onCommonScale lower (x.exponent - 2) c k
  let (u, du) := onCommonScale upper (x.exponent - 2) c k
  if x.significand % 2 = 0 then l ≤ dl && du ≤ u else l < dl && du < u

/-- The last multiple of `10 ^ k` that is at most the number. -/
def gridFloor (x : Dyadic) (k : Int) : Nat :=
  (x.significand * twoPow x.exponent.toNat * tenPow (-k).toNat) /
    (tenPow k.toNat * twoPow (-x.exponent).toNat)

/-- The neighbour on the grid of `10 ^ k` nearer to the number, a tie to the even one. -/
def nearerNeighbour (x : Dyadic) (k : Int) : Nat :=
  let c := x.gridFloor k
  let (v, d) := onCommonScale (2 * x.significand) x.exponent (2 * c + 1) k
  if v < d then c else if d < v then c + 1 else c + c % 2

/-- A neighbour on the grid of `10 ^ k` that reads back, the nearer one if both do. -/
def onGrid? (x : Dyadic) (k : Int) : Option Decimal :=
  let c := x.gridFloor k
  match x.readsBack c k, x.readsBack (c + 1) k with
  | true, true => some ⟨x.nearerNeighbour k, k⟩
  | true, false => some ⟨c, k⟩
  | false, true => some ⟨c + 1, k⟩
  | false, false => none

/-- A power of ten above the number: `log₁₀ 2` is just under `0.30103`. -/
def topGrid (x : Dyadic) : Int :=
  ((x.significand.log2 + 1 + x.exponent) * 30103) / 100000 + 2

/-- Divide out the trailing zeros of the digits; at most `n` of them. -/
def dropZeros : Nat → Decimal → Decimal
  | 0, x => x
  | n + 1, x => if x.digits % 10 = 0 then dropZeros n ⟨x.digits / 10, x.exponent + 1⟩ else x

/--
The shortest decimal that reads back as a positive number of the double format. Eighteen digits
always suffice, so the search passes at most twenty-one grids below the first.
-/
def shortest (x : Dyadic) : Decimal :=
  match (List.range 24).findSome? fun (i : Nat) => x.onGrid? (x.topGrid - i) with
  | some d => dropZeros 20 d
  | none => ⟨0, 0⟩

end Dyadic

/-- How a finite floating-point number is spelled: where positional notation ends on either side. -/
structure FloatSpelling where
  /-- Positional while the digits end at most this many places before the point. -/
  maxWholePlaces : Int
  /-- Positional while the digits start fewer than this many places after the point. -/
  maxLeadingZeros : Int

/-- Up to sixteen whole places and fewer than five zeros after the point are written out. -/
def FloatSpelling.compact : FloatSpelling := ⟨16, 5⟩

/--
Spell a decimal: positional with at least one digit on each side of the point, or as a scientific
number with the point after the first digit and an exponent that always has a sign.
-/
def FloatSpelling.spell (s : FloatSpelling) (x : Decimal) : String :=
  let digits := Nat.toDigits 10 x.digits
  let point := digits.length + x.exponent
  let zeros (n : Int) : List Char := List.replicate n.toNat '0'
  if 0 ≤ x.exponent ∧ point ≤ s.maxWholePlaces then
    String.ofList (digits ++ zeros x.exponent ++ ['.', '0'])
  else if 0 < point ∧ point ≤ s.maxWholePlaces then
    String.ofList (digits.take point.toNat ++ '.' :: digits.drop point.toNat)
  else if -s.maxLeadingZeros < point ∧ point ≤ 0 then
    String.ofList ('0' :: '.' :: zeros (-point) ++ digits)
  else
    let fraction := if digits.length = 1 then [] else '.' :: digits.drop 1
    let sign := if point < 1 then "-" else "+"
    String.ofList (digits.take 1 ++ fraction) ++ "e" ++ sign ++ toString (point - 1).natAbs

/-- The shortest text of a finite number, with its sign; nothing for an infinity or a NaN. -/
def Double.shortestText? (x : Double) : Option String :=
  x.magnitude?.map fun m =>
    let text := if m.significand = 0 then "0.0" else FloatSpelling.compact.spell m.shortest
    if x.isNegative then "-" ++ text else text

end TypedSql
