import TypedSql.Expr.Build
import TypedSql.Expr.Columns

/-!
# Building inserts

An insert takes rows, and a row gives values to columns. The first row fixes the columns and their
order; every later row gives values to the same columns, in any order. A value is encoded with the
type of its column. A row has no rows of other tables in sight, so values hold no columns.
-/

namespace TypedSql

/-- The expression has the class of the column that it is given to, or none. -/
def Column.expectAssignable (c : Column) (e : Expr) (clause : AssignmentClause) :
    Except BuildError Unit :=
  match e.class? with
  | some found =>
    if found = c.type.valueClass then .ok ()
    else .error (.assignedClass clause c.describe c.type.valueClass found)
  | none => .ok ()

theorem Column.expectAssignable_eq_ok_iff {c : Column} {e : Expr} {clause : AssignmentClause} :
    c.expectAssignable e clause = .ok () ↔
      ∀ found, e.class? = some found → found = c.type.valueClass := by
  unfold expectAssignable
  split
  · simp_all
  · simp_all

/-- The expression that a column is given for an operand, which may use columns of some sources. -/
def Column.accept (c : Column) (clause : AssignmentClause) (sources : List TableRef)
    (operand : Operand) : Except BuildError Expr :=
  if operand.isNull && !c.decl.nullable then
    .error (.notNullable c.describe)
  else do
    let e ← (Expr.column c).resolve operand
    e.expectBound sources
    c.expectAssignable e clause
    return e

/-- The values that a row gives to columns, in the order in which they were given. -/
structure Row where
  values : List (Column × Operand)

namespace Row

/-- The row that gives no values. -/
def empty : Row :=
  ⟨[]⟩

/-- Give a column a value. -/
def set (r : Row) (c : Column) (operand : Operand) : Row :=
  ⟨r.values ++ [(c, operand)]⟩

/-- The row gives a column a value. -/
def assigns (r : Row) (c : Column) : Bool :=
  r.values.any fun p => p.1.sameAs c

/-- Give a column its default, if it declares one and has no value yet. -/
def setDefault (r : Row) (c : Column) : Row :=
  match c.decl.default? with
  | some v => if r.assigns c then r else r.set c (.value v)
  | none => r

/-- Give the columns of a table that have no value yet their defaults. -/
def withDefaults (r : Row) (t : Table) : Row :=
  t.columns.foldl setDefault r

/-- The names of the columns of a row, in the order in which they were given values. -/
def names (r : Row) : List String :=
  r.values.map fun p => p.1.name

/-- The expressions of a row for a table, with the columns that were given values before. -/
def encodeFrom (t : Table) (seen : List Column) :
    List (Column × Operand) → Except BuildError (List (Column × Expr))
  | [] => .ok []
  | (c, operand) :: rest => do
    c.expectIn [t.ref]
    if seen.any fun d => d.sameAs c then
      .error (.assignedTwice c.name)
    else
      let e ← c.accept .values [] operand
      let es ← encodeFrom t (c :: seen) rest
      return (c, e) :: es

/-- The expressions that a row gives to columns of a table. -/
def encode (r : Row) (t : Table) : Except BuildError (List (Column × Expr)) :=
  if r.values.isEmpty then .error (.noAssignments t.name) else encodeFrom t [] r.values

end Row

/-- An insert. It has columns as soon as it has rows. -/
structure Insert where
  table : Table
  columns : List Column
  rows : List (List Expr)
  returning : List Column

namespace Insert

/-- The insert into a table without rows. -/
def ofTable (t : Table) : Insert :=
  ⟨t, [], [], []⟩

/-- An insert is complete when it has rows. -/
def IsComplete (i : Insert) : Prop :=
  i.rows ≠ []

instance (i : Insert) : Decidable i.IsComplete :=
  inferInstanceAs (Decidable (i.rows ≠ []))

/-- The expressions of a row in the order of some columns, if it has one for each. -/
def align (columns : List Column) (values : List (Column × Expr)) : Option (List Expr) :=
  columns.mapM fun c => (values.find? fun p => p.1.sameAs c).map Prod.snd

/-- Add a row. -/
def addRow (i : Insert) (r : Row) : Except BuildError Insert := do
  let values ← r.encode i.table
  if i.columns.isEmpty then
    return { i with columns := values.map Prod.fst, rows := i.rows ++ [values.map Prod.snd] }
  else
    let mismatch := BuildError.rowColumns (i.columns.map Column.name) r.names
    if values.length = i.columns.length then
      match align i.columns values with
      | some row => return { i with rows := i.rows ++ [row] }
      | none => .error mismatch
    else
      .error mismatch

/-- Add rows in turn. -/
def addRows (i : Insert) : List Row → Except BuildError Insert
  | [] => .ok i
  | r :: rs => do
    let i ← i.addRow r
    i.addRows rs

/-- The insert of some rows into a table. -/
def ofRows (t : Table) (rows : List Row) : Except BuildError Insert :=
  if rows.isEmpty then .error (.noRows t.name) else (ofTable t).addRows rows

/-- Return columns of the inserted rows, in place of those asked for before. -/
def returningColumns (i : Insert) (columns : List Column) : Except BuildError Insert := do
  Column.expectAllIn [i.table.ref] columns
  return { i with returning := columns }

/-- The number of rows. -/
def rowCount (i : Insert) : Nat :=
  i.rows.length

/-- A step of building an insert. -/
inductive Step
  | addRow (r : Row)
  | returningColumns (columns : List Column)

/-- Perform a step. -/
def step (i : Insert) : Step → Except BuildError Insert
  | .addRow r => i.addRow r
  | .returningColumns columns => i.returningColumns columns

end Insert

end TypedSql
