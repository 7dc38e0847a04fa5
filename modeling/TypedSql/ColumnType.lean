import TypedSql.Value

/-!
# Column types

Each column has a declared type. `ColumnType.encode` is the codec of a type: it accepts the values
that a column of the type can hold, and widens whole numbers for floating-point columns. Operators
compare the coarser `ValueClass` of a type. Encoding is idempotent: what the codec returns, it
accepts and leaves alone.
-/

namespace TypedSql

/-- The classes of values that operators tell apart. -/
inductive ValueClass
  | numeric
  | text
  | boolean
  | binary
  | temporal
  | json
  deriving DecidableEq, Repr

namespace ValueClass

/-- The name of a class. -/
def name : ValueClass → String
  | .numeric => "numeric"
  | .text => "text"
  | .boolean => "boolean"
  | .binary => "binary"
  | .temporal => "temporal"
  | .json => "json"

/-- The classes whose values have an order. -/
def orderable : List ValueClass := [.numeric, .text, .temporal]

/-- The class of the operands of text operators. -/
def textual : List ValueClass := [.text]

/-- The class of the operands of arithmetic. -/
def arithmetic : List ValueClass := [.numeric]

/-- The class of conditions. -/
def predicate : List ValueClass := [.boolean]

end ValueClass

/-- The class of a value; NULL has none. -/
def Value.class? : Value → Option ValueClass
  | .null => none
  | .bool _ => some .boolean
  | .int _ => some .numeric
  | .float _ => some .numeric
  | .text _ => some .text
  | .blob _ => some .binary
  | .timestamp _ => some .temporal

/-- The declared type of a column. -/
inductive ColumnType
  | smallint
  | integer
  | bigint
  | real
  | double
  | numeric
  | boolean
  | char (limit : Nat)
  | varchar (limit : Option Nat)
  | text
  | blob
  | date
  | time
  | timestamp
  | json
  deriving DecidableEq, Repr

/-- Why a codec refuses a value. -/
inductive EncodingFault
  /-- The type holds no values of this kind. -/
  | kind (expected : ColumnType) (found : String)
  /-- The whole number lies outside the bounds of the type. -/
  | range (n low high : Int)
  /-- The text has more characters than the type allows. -/
  | length (found limit : Nat)
  deriving DecidableEq, Repr

namespace ColumnType

/-- The spelling of a type. -/
def sql : ColumnType → String
  | .smallint => "SMALLINT"
  | .integer => "INTEGER"
  | .bigint => "BIGINT"
  | .real => "REAL"
  | .double => "DOUBLE PRECISION"
  | .numeric => "NUMERIC"
  | .boolean => "BOOLEAN"
  | .char n => "CHAR(" ++ toString n ++ ")"
  | .varchar (some n) => "VARCHAR(" ++ toString n ++ ")"
  | .varchar none => "VARCHAR"
  | .text => "TEXT"
  | .blob => "BLOB"
  | .date => "DATE"
  | .time => "TIME"
  | .timestamp => "TIMESTAMP"
  | .json => "JSON"

/-- The class of the values of a type. -/
def valueClass : ColumnType → ValueClass
  | .smallint | .integer | .bigint | .real | .double | .numeric => .numeric
  | .boolean => .boolean
  | .char _ | .varchar _ | .text => .text
  | .blob => .binary
  | .date | .time | .timestamp => .temporal
  | .json => .json

/-- Accept a whole number between two bounds. -/
def encodeWithin (low high : Int) (n : Int64) : Except EncodingFault Value :=
  if low ≤ n.toInt ∧ n.toInt ≤ high then .ok (.int n) else .error (.range n.toInt low high)

/-- Accept a text of at most so many characters. -/
def encodeUpTo (limit : Nat) (s : String) : Except EncodingFault Value :=
  if s.length ≤ limit then .ok (.text s) else .error (.length s.length limit)

/--
The value that a column of the type holds for a given value. NULL passes every codec: whether a
column may hold it is for its declaration to say.
-/
def encode : ColumnType → Value → Except EncodingFault Value
  | _, .null => .ok .null
  | .smallint, .int n => encodeWithin (-32768) 32767 n
  | .integer, .int n => encodeWithin (-2147483648) 2147483647 n
  | .bigint, .int n | .numeric, .int n => .ok (.int n)
  | .real, .int n | .double, .int n => .ok (.float (.ofInt n.toInt))
  | .real, .float x | .double, .float x | .numeric, .float x => .ok (.float x)
  | .boolean, .bool b => .ok (.bool b)
  | .char limit, .text s | .varchar (some limit), .text s => encodeUpTo limit s
  | .varchar none, .text s | .text, .text s | .json, .text s => .ok (.text s)
  | .blob, .blob bytes => .ok (.blob bytes)
  | .date, .timestamp t | .time, .timestamp t | .timestamp, .timestamp t => .ok (.timestamp t)
  | type, v => .error (.kind type v.kind)

@[simp] theorem encode_null (t : ColumnType) : t.encode .null = .ok .null := by
  cases t <;> rfl

theorem encodeWithin_eq_ok_iff {low high : Int} {n : Int64} {v : Value} :
    encodeWithin low high n = .ok v ↔ (low ≤ n.toInt ∧ n.toInt ≤ high) ∧ v = .int n := by
  unfold encodeWithin
  split <;> grind

theorem encodeUpTo_eq_ok_iff {limit : Nat} {s : String} {v : Value} :
    encodeUpTo limit s = .ok v ↔ s.length ≤ limit ∧ v = .text s := by
  unfold encodeUpTo
  split <;> grind

/-- What the codec returns, it accepts and leaves alone. -/
theorem encode_of_encode_eq_ok {t : ColumnType} {v w : Value} (h : t.encode v = .ok w) :
    t.encode w = .ok w := by
  revert h
  fun_cases encode t v <;> intro h
  all_goals
    simp only [encodeWithin_eq_ok_iff, encodeUpTo_eq_ok_iff, Except.ok.injEq, reduceCtorEq] at h
  all_goals grind [encode, encodeWithin, encodeUpTo]

end ColumnType

end TypedSql
