import TypedSql.Expr.Basic

/-!
# Parameter counts

`Expr.parameterCount` is the number of placeholders that an expression needs where every part of it
is written once. The separator of a text aggregate counts as one; a list without items is written as
a truth value, so that its subject does not count either.
-/

namespace TypedSql

/-- The sum of a count over a list. -/
def totalOf {α : Type} (count : α → Nat) : List α → Nat
  | [] => 0
  | a :: as => count a + totalOf count as

@[simp] theorem totalOf_nil {α : Type} (count : α → Nat) : totalOf count [] = 0 := rfl

@[simp] theorem totalOf_cons {α : Type} (count : α → Nat) (a : α) (as : List α) :
    totalOf count (a :: as) = count a + totalOf count as := rfl

@[simp] theorem totalOf_append {α : Type} (count : α → Nat) (as bs : List α) :
    totalOf count (as ++ bs) = totalOf count as + totalOf count bs := by
  induction as with
  | nil => simp
  | cons a as ih => simp [ih, Nat.add_assoc]

mutual

/-- The number of parameters of an expression. -/
def Expr.parameterCount : Expr → Nat
  | .column _ => 0
  | .literal _ _ => 1
  | .negation e | .complement e | .nullTest e _ => e.parameterCount
  | .binary l _ r => l.parameterCount + r.parameterCount
  | .junction _ parts => parametersOfAll parts
  | .rowCount => 0
  | .valueCount _ e | .apply _ e => e.parameterCount
  | .orElse e fallback => e.parameterCount + fallback.parameterCount
  | .extremum _ first second rest =>
    first.parameterCount + second.parameterCount + parametersOfAll rest
  | .joinedText e _ => e.parameterCount + 1
  | .listMembership _ [] _ => 0
  | .listMembership e (item :: items) _ =>
    e.parameterCount + (item.parameterCount + parametersOfAll items)
  | .rowMembership e query _ => e.parameterCount + query.parameterCount
  | .range e low high _ => e.parameterCount + low.parameterCount + high.parameterCount
  | .existence query _ => query.parameterCount
  | .quantified e _ _ query => e.parameterCount + query.parameterCount

/-- The number of parameters of some expressions. -/
def parametersOfAll : List Expr → Nat
  | [] => 0
  | e :: es => e.parameterCount + parametersOfAll es

/-- The number of parameters of a clause that may be missing. -/
def parametersOfClause : Option Expr → Nat
  | none => 0
  | some e => e.parameterCount

/-- The number of parameters of result columns. -/
def parametersOfProjections : List Projection → Nat
  | [] => 0
  | ⟨e, _⟩ :: ps => e.parameterCount + parametersOfProjections ps

/-- The number of parameters of join conditions. -/
def parametersOfJoins : List Join → Nat
  | [] => 0
  | .on _ _ condition :: js => condition.parameterCount + parametersOfJoins js
  | .cross _ :: js => parametersOfJoins js

/-- The number of parameters of sort keys. -/
def parametersOfSortKeys : List SortKey → Nat
  | [] => 0
  | ⟨e, _, _⟩ :: ks => e.parameterCount + parametersOfSortKeys ks

/-- The number of parameters of a select. -/
def Select.parameterCount : Select → Nat
  | ⟨_, projections, _, _, joins, filter?, _, having?, orderBy, _, _⟩ =>
    parametersOfProjections projections + parametersOfJoins joins + parametersOfClause filter? +
      parametersOfClause having? + parametersOfSortKeys orderBy

end

theorem parametersOfAll_eq (es : List Expr) :
    parametersOfAll es = totalOf Expr.parameterCount es := by
  induction es with
  | nil => rfl
  | cons e es ih => simp [parametersOfAll, ih]

theorem parametersOfClause_eq (e? : Option Expr) :
    parametersOfClause e? = totalOf Expr.parameterCount e?.toList := by
  cases e? <;> simp [parametersOfClause]

theorem parametersOfProjections_eq (ps : List Projection) :
    parametersOfProjections ps = totalOf Expr.parameterCount (ps.map Projection.expr) := by
  induction ps with
  | nil => rfl
  | cons p ps ih =>
    obtain ⟨e, alias?⟩ := p
    simp [parametersOfProjections, ih]

theorem parametersOfJoins_eq (js : List Join) :
    parametersOfJoins js = totalOf Expr.parameterCount (js.filterMap Join.condition?) := by
  induction js with
  | nil => rfl
  | cons j js ih => cases j <;> simp [parametersOfJoins, Join.condition?, List.filterMap_cons, ih]

theorem parametersOfSortKeys_eq (ks : List SortKey) :
    parametersOfSortKeys ks = totalOf Expr.parameterCount (ks.map SortKey.expr) := by
  induction ks with
  | nil => rfl
  | cons k ks ih =>
    obtain ⟨e, direction, nulls?⟩ := k
    simp [parametersOfSortKeys, ih]

/-- A select has the parameters of the expressions of its clauses. -/
theorem Select.parameterCount_eq (s : Select) :
    s.parameterCount = totalOf Expr.parameterCount s.clauseExprs := by
  cases s
  simp only [parameterCount, clauseExprs, totalOf_append, parametersOfProjections_eq,
    parametersOfJoins_eq, parametersOfClause_eq, parametersOfSortKeys_eq]

end TypedSql
