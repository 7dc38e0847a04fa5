/-!
# JSON lexemes

Readers for the parts of a JSON text that a typed reader is made of: blanks, words and strings. A
text that ends too early and a text that is no JSON are told apart.
-/

namespace TypedSql

namespace Json

/-- What is wrong with a JSON text. -/
inductive Fault
  /-- The text ends where more was needed. -/
  | unfinished
  /-- The text cannot be continued to JSON. -/
  | malformed
  deriving DecidableEq, Repr

/-- The characters that may stand between lexemes. -/
def isBlank (c : Char) : Bool :=
  c == ' ' || c == '\t' || c == '\n' || c == '\r'

/-- The text after its leading blanks. -/
def skipBlanks (cs : List Char) : List Char :=
  cs.dropWhile isBlank

/-- Read a fixed word. -/
def readWord : List Char → List Char → Except Fault (List Char)
  | [], cs => .ok cs
  | _ :: _, [] => .error .unfinished
  | w :: ws, c :: cs => if c = w then readWord ws cs else .error .malformed

/-- The value of a hexadecimal digit. -/
def hexValue? (c : Char) : Option Nat :=
  if '0' ≤ c ∧ c ≤ '9' then some (c.toNat - '0'.toNat)
  else if 'a' ≤ c ∧ c ≤ 'f' then some (c.toNat - 'a'.toNat + 10)
  else if 'A' ≤ c ∧ c ≤ 'F' then some (c.toNat - 'A'.toNat + 10)
  else none

/-- Read the four digits of an escaped code unit. Fewer than four bytes are an unfinished text. -/
def readCodeUnit : List Char → Except Fault (Nat × List Char)
  | a :: b :: c :: d :: cs =>
    match hexValue? a, hexValue? b, hexValue? c, hexValue? d with
    | some a, some b, some c, some d => .ok (((a * 16 + b) * 16 + c) * 16 + d, cs)
    | _, _, _, _ => .error .malformed
  | cs =>
    if (String.ofList cs).utf8ByteSize < 4 then .error .unfinished else .error .malformed

/-- The code unit is the first half of a character. -/
def isLeading (n : Nat) : Bool :=
  0xd800 ≤ n && n < 0xdc00

/-- The code unit is the second half of a character. -/
def isTrailing (n : Nat) : Bool :=
  0xdc00 ≤ n && n < 0xe000

/-- Read a character written as one code unit or as a pair of them; halves alone are refused. -/
def readCodePoint (cs : List Char) : Except Fault (Char × List Char) := do
  let (n, cs) ← readCodeUnit cs
  if isTrailing n then
    .error .malformed
  else if isLeading n then
    let cs ← readWord ['\\', 'u'] cs
    let (m, cs) ← readCodeUnit cs
    if isTrailing m then
      return (Char.ofNat (0x10000 + (n - 0xd800) * 0x400 + (m - 0xdc00)), cs)
    else
      .error .malformed
  else
    return (Char.ofNat n, cs)

/-- Read what follows a backslash. -/
def readEscape : List Char → Except Fault (Char × List Char)
  | [] => .error .unfinished
  | '"' :: cs => .ok ('"', cs)
  | '\\' :: cs => .ok ('\\', cs)
  | '/' :: cs => .ok ('/', cs)
  | 'b' :: cs => .ok ('\x08', cs)
  | 'f' :: cs => .ok ('\x0c', cs)
  | 'n' :: cs => .ok ('\n', cs)
  | 'r' :: cs => .ok ('\r', cs)
  | 't' :: cs => .ok ('\t', cs)
  | 'u' :: cs => readCodePoint cs
  | _ => .error .malformed

/-- Read the rest of a string in at most so many steps, each of which reads one character. -/
def readStringIn : Nat → List Char → List Char → Except Fault (String × List Char)
  | 0, _, _ => .error .unfinished
  | _ + 1, _, [] => .error .unfinished
  | _ + 1, done, '"' :: cs => .ok (String.ofList done.reverse, cs)
  | n + 1, done, '\\' :: cs => do
    let (c, cs) ← readEscape cs
    readStringIn n (c :: done) cs
  | n + 1, done, c :: cs =>
    if c.toNat < 0x20 then .error .malformed else readStringIn n (c :: done) cs

/-- Read the rest of a string, after its opening quote. -/
def readString (cs : List Char) : Except Fault (String × List Char) :=
  readStringIn cs.length [] cs

end Json

end TypedSql
