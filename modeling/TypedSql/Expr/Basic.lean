import TypedSql.Table

/-!
# Expressions and selects

Expressions and the selects inside them are one family of trees: a select holds expressions in its
clauses, and a condition may hold a select. The trees say what is written; which of them may be
built is decided by the functions that build them.

* `Expr` is an expression over the columns of a statement;
* `Projection`, `Join` and `SortKey` are the entries of the clauses of a select;
* `Select` is a select; `Select.clauseExprs` lists its expressions in the order of its clauses.
-/

namespace TypedSql

mutual

/-- An expression. -/
inductive Expr
  /-- A column. -/
  | column (c : Column)
  /-- A value, and the type it was encoded with if it met one. -/
  | literal (value : Value) (type? : Option ColumnType)
  /-- The negative of a number. -/
  | negation (operand : Expr)
  /-- The negation of a condition. -/
  | complement (operand : Expr)
  /-- Whether an operand is NULL, or is not. -/
  | nullTest (operand : Expr) (negated : Bool)
  /-- A binary operator between two operands. -/
  | binary (left : Expr) (op : BinaryOp) (right : Expr)
  /-- A chain of conditions. -/
  | junction (kind : Connective) (parts : List Expr)
  /-- The number of rows. -/
  | rowCount
  /-- The number of rows in which the argument is not NULL, or of its distinct values. -/
  | valueCount (distinct : Bool) (argument : Expr)
  /-- A function of one argument. -/
  | apply (f : UnaryFunction) (argument : Expr)
  /-- The argument, or the fallback where the argument is NULL. -/
  | orElse (argument fallback : Expr)
  /-- The greatest or the least of two or more arguments. -/
  | extremum (f : Extremum) (first second : Expr) (rest : List Expr)
  /-- The texts of a group with a separator between them. -/
  | joinedText (argument : Expr) (separator : String)
  /-- Whether the subject is one of some items, or is none of them. -/
  | listMembership (subject : Expr) (items : List Expr) (negated : Bool)
  /-- Whether the subject is among the rows of a subquery, or is not. -/
  | rowMembership (subject : Expr) (query : Select) (negated : Bool)
  /-- Whether the subject lies between two bounds, or does not. -/
  | range (subject low high : Expr) (negated : Bool)
  /-- Whether a subquery has rows, or has none. -/
  | existence (query : Select) (negated : Bool)
  /-- A comparison with any row or with all rows of a subquery. -/
  | quantified (subject : Expr) (op : Comparison) (quantifier : Quantifier) (query : Select)

/-- A result column of a select, with an output name of its own or without. -/
structure Projection where
  expr : Expr
  alias? : Option String

/-- A table joined to a select, on a condition or without one. -/
inductive Join
  | on (kind : JoinKind) (table : Table) (condition : Expr)
  | cross (table : Table)

/-- A sort key. -/
structure SortKey where
  expr : Expr
  direction : Direction
  nulls? : Option NullPlacement

/-- A select. Without projections its result columns are the columns of its first table. -/
structure Select where
  distinct : Bool
  projections : List Projection
  source : Table
  /-- Tables of enclosing statements that the select refers to. -/
  correlated : List Table
  joins : List Join
  filter? : Option Expr
  groupBy : List Column
  having? : Option Expr
  orderBy : List SortKey
  limit? : Option Nat
  offset? : Option Nat

end

/-- The table that a join adds. -/
def Join.table : Join → Table
  | .on _ table _ => table
  | .cross table => table

/-- The condition of a join. -/
def Join.condition? : Join → Option Expr
  | .on _ _ condition => some condition
  | .cross _ => none

namespace Select

/-- The tables whose rows a select ranges over. -/
def localRefs (s : Select) : List TableRef :=
  s.source.ref :: s.joins.map fun j => j.table.ref

/-- The tables whose columns the clauses of a select may use. -/
def sources (s : Select) : List TableRef :=
  s.localRefs ++ s.correlated.map Table.ref

/-- The expressions of a select in the order of its clauses. -/
def clauseExprs (s : Select) : List Expr :=
  s.projections.map Projection.expr ++ s.joins.filterMap Join.condition? ++ s.filter?.toList ++
    s.having?.toList ++ s.orderBy.map SortKey.expr

/-- The number of result columns. -/
def outputWidth (s : Select) : Nat :=
  if s.projections.isEmpty then s.source.columns.length else s.projections.length

/-- The select is ordered or limited. -/
def hasPaging (s : Select) : Bool :=
  !s.orderBy.isEmpty || s.limit?.isSome || s.offset?.isSome

/-- Columns have to be qualified: the select ranges over several tables or refers to outer ones. -/
def qualifies (s : Select) : Bool :=
  !s.joins.isEmpty || !s.correlated.isEmpty

end Select

namespace Expr

/-- The column that an expression is. -/
def column? : Expr → Option Column
  | .column c => some c
  | _ => none

theorem column?_eq_some_iff {e : Expr} {c : Column} : e.column? = some c ↔ e = .column c := by
  cases e <;> simp [column?]

/-- The expression is a NULL literal, with or without a type. -/
def isNullLiteral : Expr → Bool
  | .literal .null _ => true
  | _ => false

/-- The expression is a chain of conditions. -/
def isJunction : Expr → Bool
  | .junction _ _ => true
  | _ => false

/-- The function that an expression calls. -/
def function? : Expr → Option SqlFunction
  | .rowCount | .valueCount _ _ => some .count
  | .apply f _ => some f.function
  | .orElse _ _ => some .coalesce
  | .extremum f _ _ _ => some f.function
  | .joinedText _ _ => some .stringAgg
  | _ => none

/-- The expression is written as a unit: a column, a literal or a call. -/
def isAtomic (e : Expr) : Bool :=
  match e with
  | .column _ | .literal _ _ => true
  | _ => e.function?.isSome

/-- An expression in an error message. -/
def describe (e : Expr) : String :=
  match e with
  | .column c => "column " ++ c.describe
  | _ =>
    match e.function? with
    | some f => f.name ++ "(...)"
    | none => "expression"

end Expr

end TypedSql
