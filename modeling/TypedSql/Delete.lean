import TypedSql.Expr.Build
import TypedSql.Expr.Columns

/-!
# Building deletes

A delete has to say which rows it removes, by a condition or by naming all rows. Until then it is
not a statement and cannot return columns, and after naming all rows it takes no condition any more.
-/

namespace TypedSql

/-- Which rows a delete removes. -/
inductive DeleteExtent
  | undecided
  | matching (condition : Expr)
  | allRows

/-- A delete. -/
structure Delete where
  table : Table
  extent : DeleteExtent
  returning : List Column

namespace Delete

/-- The delete from a table that does not yet say which rows it removes. -/
def ofTable (t : Table) : Delete :=
  ⟨t, .undecided, []⟩

/-- The delete says which rows it removes. -/
def isDecided (d : Delete) : Bool :=
  match d.extent with
  | .undecided => false
  | _ => true

/-- The condition on the rows that are removed. -/
def condition? (d : Delete) : Option Expr :=
  match d.extent with
  | .matching condition => some condition
  | _ => none

/-- A delete is complete when it says which rows it removes. -/
def IsComplete (d : Delete) : Prop :=
  d.isDecided = true

instance (d : Delete) : Decidable d.IsComplete :=
  inferInstanceAs (Decidable (d.isDecided = true))

/-- Attach a condition on the rows to one that may be there already. -/
def filterBy (d : Delete) (condition? : Option Expr) (e : Expr) : Except BuildError Delete := do
  e.expectCondition .filter
  e.expectBound [d.table.ref]
  let condition ← Expr.attach condition? e
  return { d with extent := .matching condition }

/-- Return columns of the removed rows, in place of those asked for before. -/
def returningColumns (d : Delete) (columns : List Column) : Except BuildError Delete := do
  Column.expectAllIn [d.table.ref] columns
  return { d with returning := columns }

/-- A step of building a delete. -/
inductive Step
  | filterBy (e : Expr)
  | allRows
  | returningColumns (columns : List Column)

/-- Perform a step, if the delete offers it in its state. -/
def step? (d : Delete) (s : Step) : Option (Except BuildError Delete) :=
  match d.extent, s with
  | .undecided, .filterBy e => some (d.filterBy none e)
  | .matching condition, .filterBy e => some (d.filterBy (some condition) e)
  | .allRows, .filterBy _ => none
  | .undecided, .allRows => some (.ok { d with extent := .allRows })
  | .matching _, .allRows | .allRows, .allRows => none
  | .undecided, .returningColumns _ => none
  | .matching _, .returningColumns columns | .allRows, .returningColumns columns =>
    some (d.returningColumns columns)

end Delete

end TypedSql
