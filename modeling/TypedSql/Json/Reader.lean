import TypedSql.Json.Document
import TypedSql.Json.Lexeme
import TypedSql.Numeric.Scaled

/-!
# Reading JSON documents

`Json.parse` reads a document from a text. A number without a point and an exponent is a whole
number if it fits into sixty-four bits; any other number is a floating-point number, whose digits
are scaled by a power of ten.
-/

namespace TypedSql

namespace Json

/-- Take the digits at the start of a text, of which there has to be one. -/
def readDigits : List Char → Except Fault (List Char × List Char)
  | [] => .error .unfinished
  | c :: cs =>
    if c.isDigit then .ok (c :: cs.takeWhile Char.isDigit, cs.dropWhile Char.isDigit)
    else .error .malformed

/-- Read the whole part of a number, which has no leading zeros. -/
def readWhole (cs : List Char) : Except Fault (List Char × List Char) := do
  let (digits, cs) ← readDigits cs
  if digits.length ≠ 1 ∧ digits.head? = some '0' then .error .malformed else return (digits, cs)

/-- Read the fraction of a number, if there is one. -/
def readFraction : List Char → Except Fault (Option (List Char) × List Char)
  | '.' :: cs => do
    let (digits, cs) ← readDigits cs
    return (some digits, cs)
  | cs => .ok (none, cs)

/-- Read the exponent of a number, if there is one. -/
def readExponent : List Char → Except Fault (Option Int × List Char)
  | c :: cs =>
    if c = 'e' ∨ c = 'E' then do
      let (negative, cs) := Decimal.splitSign cs
      let (digits, cs) ← readDigits cs
      let n : Int := Decimal.natOfDigits digits
      return (some (if negative then -n else n), cs)
    else .ok (none, c :: cs)
  | [] => .ok (none, [])

/-- A whole number that fits into sixty-four bits with or without a sign; `-0` is none. -/
def integer? (negative : Bool) (n : Nat) : Option Int :=
  if negative then (if 0 < n ∧ n ≤ twoPow 63 then some (-n) else none)
  else (if n < twoPow 64 then some n else none)

/-- The number of a sign and its parts. -/
def numberOf (negative : Bool) (whole : List Char) (fraction? : Option (List Char))
    (exponent? : Option Int) : Except Fault Number :=
  let float : Except Fault Number :=
    match (Scaled.ofDigits whole (fraction?.getD []) (exponent?.getD 0)).value? with
    | some m => .ok (.float (.ofDyadic negative m))
    | none => .error .malformed
  if fraction?.isNone && exponent?.isNone then
    match integer? negative (Decimal.natOfDigits whole) with
    | some n => .ok (.int n)
    | none => float
  else float

/-- Read a number. -/
def readNumber (cs : List Char) : Except Fault (Number × List Char) := do
  let (negative, cs) :=
    match cs with
    | '-' :: cs => (true, cs)
    | cs => (false, cs)
  let (whole, cs) ← readWhole cs
  let (fraction?, cs) ← readFraction cs
  let (exponent?, cs) ← readExponent cs
  let n ← numberOf negative whole fraction? exponent?
  return (n, cs)

/-- What a document starts with: all of it, unless it is an array or an object. -/
inductive Opening
  | null
  | bool (b : Bool)
  | number (n : Number)
  | string (s : String)
  | array
  | object
  deriving DecidableEq, Repr

/-- Read, after blanks, a document without parts or the bracket that opens one with parts. -/
def readOpening (cs : List Char) : Except Fault (Opening × List Char) :=
  match skipBlanks cs with
  | [] => .error .unfinished
  | 'n' :: cs => do return (.null, ← readWord ['u', 'l', 'l'] cs)
  | 't' :: cs => do return (.bool true, ← readWord ['r', 'u', 'e'] cs)
  | 'f' :: cs => do return (.bool false, ← readWord ['a', 'l', 's', 'e'] cs)
  | '"' :: cs => do
    let (s, cs) ← readString cs
    return (.string s, cs)
  | '[' :: cs => .ok (.array, cs)
  | '\x7b' :: cs => .ok (.object, cs)
  | c :: cs =>
    if c = '-' ∨ c.isDigit then do
      let (m, cs) ← readNumber (c :: cs)
      return (.number m, cs)
    else .error .malformed

mutual

/-- Read a document, after blanks, in at most so many steps. -/
def readValueIn : Nat → List Char → Except Fault (Json × List Char)
  | 0, _ => .error .unfinished
  | n + 1, cs => do
    match ← readOpening cs with
    | (.null, cs) => return (.null, cs)
    | (.bool b, cs) => return (.bool b, cs)
    | (.number m, cs) => return (.number m, cs)
    | (.string s, cs) => return (.string s, cs)
    | (.array, cs) =>
      match skipBlanks cs with
      | ']' :: cs => return (.array [], cs)
      | cs => do
        let (items, cs) ← readItemsIn n cs
        return (.array items, cs)
    | (.object, cs) =>
      match skipBlanks cs with
      | '\x7d' :: cs => return (.object [], cs)
      | cs => do
        let (members, cs) ← readMembersIn n cs
        return (.object members, cs)

/-- Read items up to the end of an array. -/
def readItemsIn : Nat → List Char → Except Fault (List Json × List Char)
  | 0, _ => .error .unfinished
  | n + 1, cs => do
    let (j, cs) ← readValueIn n cs
    match skipBlanks cs with
    | [] => .error .unfinished
    | ']' :: cs => return ([j], cs)
    | ',' :: cs => do
      let (js, cs) ← readItemsIn n cs
      return (j :: js, cs)
    | _ => .error .malformed

/-- Read members up to the end of an object. -/
def readMembersIn : Nat → List Char → Except Fault (List (String × Json) × List Char)
  | 0, _ => .error .unfinished
  | n + 1, cs => do
    let cs ← readWord ['"'] (skipBlanks cs)
    let (key, cs) ← readString cs
    let cs ← readWord [':'] (skipBlanks cs)
    let (j, cs) ← readValueIn n cs
    match skipBlanks cs with
    | [] => .error .unfinished
    | '\x7d' :: cs => return ([(key, j)], cs)
    | ',' :: cs => do
      let (members, cs) ← readMembersIn n cs
      return ((key, j) :: members, cs)
    | _ => .error .malformed

end

/-- Read a document at the start of a text. Every second step reads a character. -/
def readValue (cs : List Char) : Except Fault (Json × List Char) :=
  readValueIn (2 * cs.length + 2) cs

/-- Read a document that takes up a whole text. -/
def parse (text : String) : Except Fault Json := do
  let (j, cs) ← readValue text.toList
  if (skipBlanks cs).isEmpty then return j else .error .malformed

end Json

end TypedSql
