import TypedSql.Expr.Build
import TypedSql.Expr.Columns

/-!
# Building selects

A select starts with its first table and is extended step by step. A step is checked against the
tables that the select has at that moment, and a refused step changes nothing. `Select.Step` lists
the steps and `Select.step` performs one.
-/

namespace TypedSql

namespace Select

/-- The select of all rows of a table. -/
def ofTable (t : Table) : Select where
  distinct := false
  projections := []
  source := t
  correlated := []
  joins := []
  filter? := none
  groupBy := []
  having? := none
  orderBy := []
  limit? := none
  offset? := none

/-- An expression uses only columns of the tables of a select. -/
def expectBound (s : Select) (e : Expr) : Except BuildError Unit :=
  e.expectBound s.sources

/-- The expressions use only columns of the tables of a select. -/
def expectAllBound (s : Select) : List Expr → Except BuildError Unit
  | [] => .ok ()
  | e :: es => do
    s.expectBound e
    s.expectAllBound es

/-- Add result columns without output names of their own. -/
def project (s : Select) (es : List Expr) : Except BuildError Select := do
  s.expectAllBound es
  return { s with projections := s.projections ++ es.map fun e => ⟨e, none⟩ }

/-- Add a result column under an output name. -/
def projectAs (s : Select) (e : Expr) (name : String) : Except BuildError Select := do
  s.expectBound e
  return { s with projections := s.projections ++ [⟨e, some name⟩] }

/-- Drop repeated rows. -/
def dropDuplicates (s : Select) : Select :=
  { s with distinct := true }

/-- Let the select refer to a table of an enclosing statement. -/
def correlate (s : Select) (t : Table) : Select :=
  { s with correlated := s.correlated ++ [t] }

/-- A select ranges over a table only once. -/
def expectNew (s : Select) (t : Table) : Except BuildError Unit :=
  if t.ref ∈ s.sources then .error (.joinedTwice t.ref.qualifier) else .ok ()

/-- Join a table on a condition, which may use the columns of that table too. -/
def join (s : Select) (kind : JoinKind) (t : Table) (condition : Expr) :
    Except BuildError Select := do
  s.expectNew t
  let joined := { s with joins := s.joins ++ [.on kind t condition] }
  condition.expectCondition .joinOn
  joined.expectBound condition
  return joined

/-- Join a table without a condition. -/
def crossJoin (s : Select) (t : Table) : Except BuildError Select := do
  s.expectNew t
  return { s with joins := s.joins ++ [.cross t] }

/-- Attach a condition on the rows. -/
def filterBy (s : Select) (e : Expr) : Except BuildError Select := do
  e.expectCondition .filter
  s.expectBound e
  let filter ← Expr.attach s.filter? e
  return { s with filter? := some filter }

/-- Group by columns, in place of an earlier grouping. -/
def group (s : Select) (columns : List Column) : Except BuildError Select := do
  Column.expectAllIn s.sources columns
  return { s with groupBy := columns }

/-- Attach a condition on the groups. -/
def havingBy (s : Select) (e : Expr) : Except BuildError Select := do
  e.expectCondition .having
  s.expectBound e
  let having ← Expr.attach s.having? e
  return { s with having? := some having }

/-- Add a sort key. -/
def sort (s : Select) (k : SortKey) : Except BuildError Select := do
  s.expectBound k.expr
  return { s with orderBy := s.orderBy ++ [k] }

/-- Return at most so many rows. -/
def limit (s : Select) (n : Nat) : Select :=
  { s with limit? := some n }

/-- Leave out so many rows. -/
def offset (s : Select) (n : Nat) : Select :=
  { s with offset? := some n }

/-- A step of building a select. -/
inductive Step
  | project (es : List Expr)
  | projectAs (e : Expr) (name : String)
  | dropDuplicates
  | correlate (t : Table)
  | join (kind : JoinKind) (t : Table) (condition : Expr)
  | crossJoin (t : Table)
  | filterBy (e : Expr)
  | group (columns : List Column)
  | havingBy (e : Expr)
  | sort (k : SortKey)
  | limit (n : Nat)
  | offset (n : Nat)

/-- Perform a step. -/
def step (s : Select) : Step → Except BuildError Select
  | .project es => s.project es
  | .projectAs e name => s.projectAs e name
  | .dropDuplicates => .ok s.dropDuplicates
  | .correlate t => .ok (s.correlate t)
  | .join kind t condition => s.join kind t condition
  | .crossJoin t => s.crossJoin t
  | .filterBy e => s.filterBy e
  | .group columns => s.group columns
  | .havingBy e => s.havingBy e
  | .sort k => s.sort k
  | .limit n => .ok (s.limit n)
  | .offset n => .ok (s.offset n)

/-- The select projects a column under the column's own name. -/
def projects (s : Select) (c : Column) : Bool :=
  if s.projections.isEmpty then s.source.columns.any fun d => d.sameAs c
  else
    s.projections.any fun p =>
      p.alias?.isNone && (match p.expr.column? with | some d => d.sameAs c | none => false)

end Select

end TypedSql
