import TypedSql.Expr.Basic

/-!
# Columns of expressions

`Expr.columns` lists the columns that an expression asks of its surroundings, in the order in which
they are written. A subquery asks for the columns that none of its own tables provides.
`Expr.expectBound` refuses an expression that asks for a column of a table outside some sources.
-/

namespace TypedSql

mutual

/-- The columns that an expression asks of its surroundings. -/
def Expr.columns : Expr → List Column
  | .column c => [c]
  | .literal _ _ => []
  | .negation e | .complement e | .nullTest e _ => e.columns
  | .binary l _ r => l.columns ++ r.columns
  | .junction _ parts => columnsOfAll parts
  | .rowCount => []
  | .valueCount _ e | .apply _ e => e.columns
  | .orElse e fallback => e.columns ++ fallback.columns
  | .extremum _ first second rest => first.columns ++ second.columns ++ columnsOfAll rest
  | .joinedText e _ => e.columns
  | .listMembership e items _ => e.columns ++ columnsOfAll items
  | .rowMembership e query _ => e.columns ++ query.outerColumns
  | .range e low high _ => e.columns ++ low.columns ++ high.columns
  | .existence query _ => query.outerColumns
  | .quantified e _ _ query => e.columns ++ query.outerColumns

/-- The columns of some expressions in turn. -/
def columnsOfAll : List Expr → List Column
  | [] => []
  | e :: es => e.columns ++ columnsOfAll es

/-- The columns of a clause that may be missing. -/
def columnsOfClause : Option Expr → List Column
  | none => []
  | some e => e.columns

/-- The columns of result columns in turn. -/
def columnsOfProjections : List Projection → List Column
  | [] => []
  | ⟨e, _⟩ :: ps => e.columns ++ columnsOfProjections ps

/-- The columns of join conditions in turn. -/
def columnsOfJoins : List Join → List Column
  | [] => []
  | .on _ _ condition :: js => condition.columns ++ columnsOfJoins js
  | .cross _ :: js => columnsOfJoins js

/-- The columns of sort keys in turn. -/
def columnsOfSortKeys : List SortKey → List Column
  | [] => []
  | ⟨e, _, _⟩ :: ks => e.columns ++ columnsOfSortKeys ks

/-- The columns that a select asks of the statements around it. -/
def Select.outerColumns : Select → List Column
  | ⟨_, projections, source, _, joins, filter?, groupBy, having?, orderBy, _, _⟩ =>
    (columnsOfProjections projections ++ columnsOfJoins joins ++ columnsOfClause filter? ++
        columnsOfClause having? ++ columnsOfSortKeys orderBy ++ groupBy).filter fun c =>
      !(source.ref :: joins.map fun j => j.table.ref).contains c.table

end

theorem columnsOfAll_eq (es : List Expr) : columnsOfAll es = es.flatMap Expr.columns := by
  induction es with
  | nil => rfl
  | cons e es ih => simp [columnsOfAll, ih]

theorem columnsOfClause_eq (e? : Option Expr) :
    columnsOfClause e? = e?.toList.flatMap Expr.columns := by
  cases e? <;> simp [columnsOfClause]

theorem columnsOfProjections_eq (ps : List Projection) :
    columnsOfProjections ps = (ps.map Projection.expr).flatMap Expr.columns := by
  induction ps with
  | nil => rfl
  | cons p ps ih =>
    obtain ⟨e, alias?⟩ := p
    simp [columnsOfProjections, ih]

theorem columnsOfJoins_eq (js : List Join) :
    columnsOfJoins js = (js.filterMap Join.condition?).flatMap Expr.columns := by
  induction js with
  | nil => rfl
  | cons j js ih => cases j <;> simp [columnsOfJoins, Join.condition?, List.filterMap_cons, ih]

theorem columnsOfSortKeys_eq (ks : List SortKey) :
    columnsOfSortKeys ks = (ks.map SortKey.expr).flatMap Expr.columns := by
  induction ks with
  | nil => rfl
  | cons k ks ih =>
    obtain ⟨e, direction, nulls?⟩ := k
    simp [columnsOfSortKeys, ih]

/-- A select asks for the columns of its clauses that its own tables do not provide. -/
theorem Select.outerColumns_eq (s : Select) :
    s.outerColumns = (s.clauseExprs.flatMap Expr.columns ++ s.groupBy).filter fun c =>
      !s.localRefs.contains c.table := by
  cases s
  simp [outerColumns, clauseExprs, localRefs, columnsOfProjections_eq, columnsOfJoins_eq,
    columnsOfClause_eq, columnsOfSortKeys_eq]

/-- A column belongs to one of some tables. -/
def Column.expectIn (c : Column) (sources : List TableRef) : Except BuildError Unit :=
  if c.table ∈ sources then .ok () else .error (.unboundColumn c.name c.qualifier)

/-- Every column of an expression belongs to one of some tables; the first other one is named. -/
def Expr.expectBound (e : Expr) (sources : List TableRef) : Except BuildError Unit :=
  match e.columns.find? fun c => !sources.contains c.table with
  | some c => .error (.unboundColumn c.name c.qualifier)
  | none => .ok ()

/-- Some columns belong to some tables; the first other one is named. -/
def Column.expectAllIn (sources : List TableRef) : List Column → Except BuildError Unit
  | [] => .ok ()
  | c :: cs =>
    match c.expectIn sources with
    | .error e => .error e
    | .ok () => Column.expectAllIn sources cs

theorem Expr.expectBound_eq_ok_iff (e : Expr) (sources : List TableRef) :
    e.expectBound sources = .ok () ↔ ∀ c ∈ e.columns, c.table ∈ sources := by
  unfold expectBound
  split <;> grind

end TypedSql
