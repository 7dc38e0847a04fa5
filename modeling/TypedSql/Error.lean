import TypedSql.ColumnType
import TypedSql.Operator

/-!
# Build errors

Everything that can be wrong with a table or a statement is found while it is built, and nothing
while its text is written. A `BuildError` is a cause; its wording is `BuildError.message`.
-/

namespace TypedSql

/-- The clauses that give a column a value. -/
inductive AssignmentClause
  | values
  | set
  deriving DecidableEq, Repr

/-- The spelling of a clause that gives a column a value. -/
def AssignmentClause.sql : AssignmentClause → String
  | .values => "VALUES for"
  | .set => "SET"

/-- Why a table, an expression or a step of a statement is refused. -/
inductive BuildError
  /-- The codec of a column refuses a value. -/
  | encoding (column : String) (fault : EncodingFault)
  /-- A construct does not take operands of the class. -/
  | operandClass (construct : Construct) (operand : String) (allowed : List ValueClass)
      (found : ValueClass)
  /-- The two sides of a construct have different classes. -/
  | classesDiffer (construct : Construct) (left right : String) (expected found : ValueClass)
  /-- A subquery is quantified for an operator that is no comparison. -/
  | notComparison (op : BinaryOp) (quantifier : Quantifier)
  /-- A column is given an expression of another class. -/
  | assignedClass (clause : AssignmentClause) (column : String) (expected found : ValueClass)
  /-- A construct does not take NULL, or an operand that can only be NULL. -/
  | nullOperand (construct : Construct)
  /-- The column cannot hold NULL. -/
  | notNullable (column : String)
  /-- A row does not give values to the columns of the rows before it. -/
  | rowColumns (expected found : List String)
  /-- A row gives a column two values. -/
  | assignedTwice (column : String)
  /-- A row or an update gives no column a value. -/
  | noAssignments (table : String)
  /-- An insert is asked for without rows. -/
  | noRows (table : String)
  /-- A column belongs to a table that the statement does not range over. -/
  | unboundColumn (column table : String)
  /-- A table has no column of the name. -/
  | unknownColumn (table column : String)
  /-- A table declares two columns of one name. -/
  | declaredTwice (table column : String)
  /-- A table declares no columns. -/
  | noColumns (table : String)
  /-- A table is joined to a select that ranges over it already. -/
  | joinedTwice (table : String)
  /-- Two projections that have to match differ in width. -/
  | widthsDiffer (left right : Nat)
  /-- A member of a compound select is ordered or limited itself. -/
  | memberPaging
  /-- A sort key of a compound select is not one of its result columns. -/
  | notResultColumn (term : String)
  deriving DecidableEq, Repr

/-- Words with commas between them. -/
def listed (words : List String) : String :=
  String.intercalate ", " words

/-- What a build error says when an expected and a found thing do not match. -/
def mismatchMessage (context expected found : String) : String :=
  "type mismatch for " ++ context ++ ": expected " ++ expected ++ ", found " ++ found

/-- The refusal of a value by the codec of a column, in words. -/
def EncodingFault.message (column : String) : EncodingFault → String
  | .kind expected found => mismatchMessage ("column " ++ column) expected.sql found
  | .range n low high =>
    s!"value out of range for column {column}: {n} is outside [{low}, {high}]"
  | .length found limit =>
    s!"value out of range for column {column}: {found} characters exceed the limit of {limit}"

/-- The wording of a build error. -/
def BuildError.message : BuildError → String
  | .encoding column fault => fault.message column
  | .operandClass construct operand allowed found =>
    mismatchMessage (construct.sql ++ " on " ++ operand)
      (String.intercalate " or " (allowed.map ValueClass.name)) found.name
  | .classesDiffer construct left right expected found =>
    mismatchMessage (construct.sql ++ " between " ++ left ++ " and " ++ right) expected.name
      found.name
  | .notComparison op quantifier =>
    mismatchMessage (op.sql ++ " " ++ quantifier.sql ++ " (SELECT ...)") "comparison operator"
      op.sql
  | .assignedClass clause column expected found =>
    mismatchMessage (clause.sql ++ " " ++ column) expected.name found.name
  | .nullOperand construct => "NULL is not a valid operand for " ++ construct.sql
  | .notNullable column => s!"column {column} is not nullable"
  | .rowColumns expected found =>
    "insert rows supply different columns: expected [" ++ listed expected ++ "], found [" ++
      listed found ++ "]"
  | .assignedTwice column => s!"column {column} is assigned more than once in the same row"
  | .noAssignments table => s!"no assignments for table {table}"
  | .noRows table => s!"INSERT into {table} has no rows"
  | .unboundColumn column table =>
    s!"column {column} belongs to {table}, which is not a source of this statement"
  | .unknownColumn table column => s!"table {table} has no column named {column}"
  | .declaredTwice table column => s!"table {table} declares column {column} more than once"
  | .noColumns table => s!"table {table} declares no columns"
  | .joinedTwice table =>
    s!"table {table} is already a source of this statement; alias it to join again"
  | .widthsDiffer left right =>
    s!"projection width mismatch: {left} column(s) vs {right} column(s)"
  | .memberPaging => "ORDER BY, LIMIT and OFFSET are not allowed on a member of a compound select"
  | .notResultColumn term => s!"{term} is not a result column of the compound select"

end TypedSql
