import TypedSql.Insert

/-!
# Building updates

An update gives columns new values, each column at most one: a later assignment to a column replaces
the earlier one in its place. The new values and the condition may use the columns of the table.
-/

namespace TypedSql

/-- An update. -/
structure Update where
  table : Table
  assignments : List (Column × Expr)
  filter? : Option Expr
  returning : List Column

namespace Update

/-- The update of a table without assignments. -/
def ofTable (t : Table) : Update :=
  ⟨t, [], none, []⟩

/-- An update is complete when it has assignments. -/
def IsComplete (u : Update) : Prop :=
  u.assignments ≠ []

instance (u : Update) : Decidable u.IsComplete :=
  inferInstanceAs (Decidable (u.assignments ≠ []))

/-- Assign a column in the place of its earlier assignment, or after all others. -/
def put (c : Column) (e : Expr) : List (Column × Expr) → List (Column × Expr)
  | [] => [(c, e)]
  | (d, f) :: rest => if d.sameAs c then (d, e) :: rest else (d, f) :: put c e rest

/-- Give a column a new value. -/
def set (u : Update) (c : Column) (operand : Operand) : Except BuildError Update := do
  c.expectIn [u.table.ref]
  let e ← c.accept .set [u.table.ref] operand
  return { u with assignments := put c e u.assignments }

/-- Give columns new values in turn. -/
def setAll (u : Update) : List (Column × Operand) → Except BuildError Update
  | [] => .ok u
  | (c, operand) :: rest => do
    let u ← u.set c operand
    u.setAll rest

/-- The update of a table with some assignments. -/
def ofAssignments (t : Table) (assignments : List (Column × Operand)) :
    Except BuildError Update :=
  if assignments.isEmpty then .error (.noAssignments t.name)
  else (ofTable t).setAll assignments

/-- Attach a condition on the rows. -/
def filterBy (u : Update) (e : Expr) : Except BuildError Update := do
  e.expectCondition .filter
  e.expectBound [u.table.ref]
  let filter ← Expr.attach u.filter? e
  return { u with filter? := some filter }

/-- Return columns of the changed rows, in place of those asked for before. -/
def returningColumns (u : Update) (columns : List Column) : Except BuildError Update := do
  Column.expectAllIn [u.table.ref] columns
  return { u with returning := columns }

/-- A step of building an update. -/
inductive Step
  | set (c : Column) (operand : Operand)
  | filterBy (e : Expr)
  | returningColumns (columns : List Column)

/-- Perform a step. -/
def step (u : Update) : Step → Except BuildError Update
  | .set c operand => u.set c operand
  | .filterBy e => u.filterBy e
  | .returningColumns columns => u.returningColumns columns

end Update

end TypedSql
