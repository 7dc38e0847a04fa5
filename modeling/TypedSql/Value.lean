import TypedSql.Json.Document
import TypedSql.Timestamp

/-!
# Values

The values that statements carry beside their text. A value never becomes part of the text of a
statement; it is bound to a placeholder by position. `Value.toJson` is the tagged form in which a
compiled statement is written out.
-/

namespace TypedSql

/-- A value bound to a placeholder, or held as the default of a column. -/
inductive Value
  | null
  | bool (b : Bool)
  | int (n : Int64)
  | float (x : Double)
  | text (s : String)
  | blob (bytes : List UInt8)
  | timestamp (t : Timestamp)
  deriving DecidableEq

namespace Value

/-- A JSON document is bound as its compact text, with the members of objects in key order. -/
def ofJson (j : Json) : Value :=
  .text j.sorted.compact

/-- The value is NULL. -/
def isNull : Value → Bool
  | .null => true
  | _ => false

/-- The name of the kind of a value. -/
def kind : Value → String
  | .null => "NULL"
  | .bool _ => "BOOLEAN"
  | .int _ => "INTEGER"
  | .float _ => "FLOAT"
  | .text _ => "TEXT"
  | .blob _ => "BLOB"
  | .timestamp _ => "TIMESTAMP"

/-- The tag of a value in its written form. -/
def tag : Value → String
  | .null => "null"
  | .bool _ => "bool"
  | .int _ => "int"
  | .float _ => "float"
  | .text _ => "text"
  | .blob _ => "blob"
  | .timestamp _ => "timestamp"

/-- The content of a value in its written form; NULL has none. -/
def content? : Value → Option Json
  | .null => none
  | .bool b => some (.bool b)
  | .int n => some (.ofInt n.toInt)
  | .float x => some (.number (.float x))
  | .text s => some (.string s)
  | .blob bytes => some (.array (bytes.map fun b => .ofNat b.toNat))
  | .timestamp t => some (.string t.text)

/-- The written form of a value: its tag, then its content. -/
def toJson (v : Value) : Json :=
  .object (("type", .string v.tag) :: (v.content?.map fun j => ("value", j)).toList)

@[simp] theorem isNull_iff (v : Value) : v.isNull = true ↔ v = .null := by
  cases v <;> simp [isNull]

end Value

end TypedSql
