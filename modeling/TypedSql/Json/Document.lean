import TypedSql.Numeric.Shortest

/-!
# JSON documents

A `Json` value and its compact text: no blanks, members in the order they are held, integers as they
are and other numbers in their shortest form. `Json.sorted` puts the members of every object in the
order of their keys, one member for each key.
-/

namespace TypedSql

/-- A JSON number: a whole number, or a floating-point number. -/
inductive Json.Number
  | int (n : Int)
  | float (x : Double)
  deriving DecidableEq, Repr

/-- A JSON document. -/
inductive Json
  | null
  | bool (b : Bool)
  | number (n : Json.Number)
  | string (s : String)
  | array (items : List Json)
  | object (members : List (String × Json))

namespace Json

/-- A whole number as a document. -/
def ofInt (n : Int) : Json :=
  .number (.int n)

/-- A natural number as a document. -/
def ofNat (n : Nat) : Json :=
  .number (.int n)

/-- The text of a number; JSON has no infinity and no NaN, so these are written as `null`. -/
def Number.text : Number → String
  | .int n => toString n
  | .float x => x.shortestText?.getD "null"

/--
The escape of a character inside a string: short forms where there are any, a code for the other
control characters below the blank, and everything else as it is.
-/
def escape (c : Char) : List Char :=
  match c with
  | '"' => ['\\', '"']
  | '\\' => ['\\', '\\']
  | '\n' => ['\\', 'n']
  | '\r' => ['\\', 'r']
  | '\t' => ['\\', 't']
  | '\x08' => ['\\', 'b']
  | '\x0c' => ['\\', 'f']
  | c =>
    if c.toNat < 0x20 then
      ['\\', 'u', '0', '0', Nat.digitChar (c.toNat / 16), Nat.digitChar (c.toNat % 16)]
    else
      [c]

/-- A string between double quotes. -/
def quoted (s : String) : String :=
  "\"" ++ String.ofList (s.toList.flatMap escape) ++ "\""

/-- Texts with commas between them. -/
def commaJoined : List String → String :=
  String.intercalate ","

mutual

/-- The compact text of a document. -/
def compact : Json → String
  | .null => "null"
  | .bool b => if b then "true" else "false"
  | .number n => n.text
  | .string s => quoted s
  | .array items => "[" ++ commaJoined (compactItems items) ++ "]"
  | .object members => "\x7b" ++ commaJoined (compactMembers members) ++ "\x7d"

/-- The compact texts of the items of an array. -/
def compactItems : List Json → List String
  | [] => []
  | j :: rest => j.compact :: compactItems rest

/-- The compact texts of the members of an object. -/
def compactMembers : List (String × Json) → List String
  | [] => []
  | (key, j) :: rest => (quoted key ++ ":" ++ j.compact) :: compactMembers rest

end

/--
Put a member into a list with ascending keys, unless its key is there already. Members are inserted
from the last one on, so the last member of a key is the one that stays.
-/
def insertMember (key : String) (j : Json) : List (String × Json) → List (String × Json)
  | [] => [(key, j)]
  | (k, v) :: rest =>
    if key < k then (key, j) :: (k, v) :: rest
    else if key = k then (k, v) :: rest
    else (k, v) :: insertMember key j rest

mutual

/-- Every object with its members in the order of their keys, by code points. -/
def sorted : Json → Json
  | .array items => .array (sortedItems items)
  | .object members => .object (sortedMembers members)
  | .null => .null
  | .bool b => .bool b
  | .number n => .number n
  | .string s => .string s

/-- The items of an array, each with its objects in order. -/
def sortedItems : List Json → List Json
  | [] => []
  | j :: rest => j.sorted :: sortedItems rest

/-- The members of an object in the order of their keys. -/
def sortedMembers : List (String × Json) → List (String × Json)
  | [] => []
  | (key, j) :: rest => insertMember key j.sorted (sortedMembers rest)

end

/-- The member of an object with a key. -/
def member? (key : String) : Json → Option Json
  | .object members => members.lookup key
  | _ => none

end Json

end TypedSql
