import TypedSql.Expr.Basic

/-!
# Classes and types of expressions

`Expr.class?` is the class of the values of an expression; an expression whose value can only be
NULL has none. `Expr.type?` is the declared type behind an expression, with which a raw value beside
it is encoded: columns and typed literals have one, and the functions that return one of their
arguments take the type of the first.
-/

namespace TypedSql

namespace Expr

mutual

/-- The class of an expression. -/
def class? : Expr → Option ValueClass
  | .column c => some c.type.valueClass
  | .literal _ (some type) => some type.valueClass
  | .literal v none => v.class?
  | .negation _ => some .numeric
  | .binary _ (.arithmetic _) _ => some .numeric
  | .binary _ (.compare _) _ | .binary _ (.pattern _) _ => some .boolean
  | .complement _ | .nullTest _ _ | .junction _ _ => some .boolean
  | .listMembership _ _ _ | .rowMembership _ _ _ | .range _ _ _ _ => some .boolean
  | .existence _ _ | .quantified _ _ _ _ => some .boolean
  | .rowCount | .valueCount _ _ => some .numeric
  | .apply .sum _ | .apply .avg _ => some .numeric
  | .apply .lower _ | .apply .upper _ => some .text
  | .apply .arrayAgg _ => some .json
  | .apply .min e | .apply .max e => e.class?
  | .orElse e fallback => e.class?.or fallback.class?
  | .extremum _ first second rest => (first.class?.or second.class?).or (firstClass? rest)
  | .joinedText _ _ => some .text

/-- The class of the first of some expressions that has one. -/
def firstClass? : List Expr → Option ValueClass
  | [] => none
  | e :: es => e.class?.or (firstClass? es)

end

/-- The declared type behind an expression. -/
def type? : Expr → Option ColumnType
  | .column c => some c.type
  | .literal _ type? => type?
  | .apply .min e | .apply .max e => e.type?
  | .orElse e _ => e.type?
  | .extremum _ first _ _ => first.type?
  | _ => none

/-- The expression has one of the classes that a construct allows. -/
def expectClass (e : Expr) (allowed : List ValueClass) (construct : Construct) :
    Except BuildError Unit :=
  match e.class? with
  | some found =>
    if found ∈ allowed then .ok ()
    else .error (.operandClass construct e.describe allowed found)
  | none => .error (.nullOperand construct)

theorem expectClass_eq_ok_iff {e : Expr} {allowed : List ValueClass} {construct : Construct} :
    e.expectClass allowed construct = .ok () ↔ ∃ found ∈ allowed, e.class? = some found := by
  unfold expectClass
  split
  · simp_all
  · simp_all

/-- The expression is a condition of a clause. -/
def expectCondition (e : Expr) (clause : ConditionClause) : Except BuildError Unit :=
  e.expectClass ValueClass.predicate (.condition clause)

theorem expectCondition_eq_ok_iff {e : Expr} {clause : ConditionClause} :
    e.expectCondition clause = .ok () ↔ e.class? = some .boolean := by
  simp [expectCondition, expectClass_eq_ok_iff, ValueClass.predicate]

/-- The expression does not have another class than its counterpart; both classes must be known. -/
def expectSameClass (e : Expr) (other? : Option ValueClass) (other : String)
    (construct : Construct) : Except BuildError Unit :=
  match e.class?, other? with
  | some expected, some found =>
    if expected = found then .ok ()
    else .error (.classesDiffer construct e.describe other expected found)
  | _, _ => .ok ()

theorem expectSameClass_eq_ok_iff {e : Expr} {other? : Option ValueClass} {other : String}
    {construct : Construct} :
    e.expectSameClass other? other construct = .ok () ↔
      ∀ expected found, e.class? = some expected → other? = some found → expected = found := by
  unfold expectSameClass
  split
  · simp_all
  · simp_all

/-- Two expressions do not have different classes. -/
def expectComparable (e other : Expr) (construct : Construct) : Except BuildError Unit :=
  e.expectSameClass other.class? other.describe construct

end Expr

/-- The classes of the result columns of a select. -/
def Select.outputClasses (s : Select) : List (Option ValueClass) :=
  if s.projections.isEmpty then s.source.columns.map fun c => some c.type.valueClass
  else s.projections.map fun p => p.expr.class?

@[simp] theorem Select.length_outputClasses (s : Select) :
    s.outputClasses.length = s.outputWidth := by
  unfold outputClasses outputWidth
  split <;> simp

end TypedSql
