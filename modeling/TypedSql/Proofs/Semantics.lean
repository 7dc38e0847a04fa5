import TypedSql.Proofs.Grammar

/-!
# What expressions mean

`SqlExpr.eval` gives an expression its standard meaning, with three truth values: a comparison with
NULL is unknown, a condition and its parts may be unknown, and only a test for NULL is always known.
`IN` is `= ANY`, `NOT IN` its negation, and a match that ignores case is a match of lower-cased
operands.

What the standard leaves to an engine and its data is an `Interpretation`: the values of columns,
how values compare that are not NULL, arithmetic, functions, and the rows of a subquery. A row, with
all that can be seen from it, is an element of some type; an aggregate looks at the rows of its
group, so a function is given what its arguments mean in all rows and not their values in one. The
rows of a subquery depend on no more than what its clauses mean.
-/

namespace TypedSql

/-! ### Truth values -/

/-- A truth value; `none` is the unknown one. -/
abbrev Truth := Option Bool

namespace Truth

/-- The truth value of the negation of a condition. -/
def not (t : Truth) : Truth :=
  t.map (!·)

/-- The truth value of a condition or of its negation. -/
def negatedIf (negated : Bool) (t : Truth) : Truth :=
  if negated then t.not else t

/-- A truth value as a value. -/
def value : Truth → Value
  | some b => .bool b
  | none => .null

end Truth

/-- The truth value that a value is. -/
def Value.truth : Value → Truth
  | .bool b => some b
  | _ => none

namespace Connective

/-- The truth value of two joined conditions. What is unknown decides nothing, so the other one
decides if it can do so alone. -/
def join (kind : Connective) : Truth → Truth → Truth
  | some a, some b => if a = kind.unit then some b else some a
  | some a, none => if a = kind.unit then none else some a
  | none, some b => if b = kind.unit then none else some b
  | none, none => none

/-- The truth value of a chain of conditions. -/
def joinAll (kind : Connective) (ts : List Truth) : Truth :=
  ts.foldr kind.join (some kind.unit)

/-- The connective that negation turns a connective into. -/
def dual : Connective → Connective
  | .and => .or
  | .or => .and

theorem not_join (kind : Connective) (t u : Truth) :
    (kind.join t u).not = kind.dual.join t.not u.not := by
  cases kind <;> rcases t with _ | _ | _ <;> rcases u with _ | _ | _ <;> rfl

/-- What is unknown is decided by another condition, or by none. -/
example : Connective.or.joinAll [none, some true] = some true ∧
    Connective.or.joinAll [none, some false] = none := by
  decide

/-- A negated chain is the chain of the negated conditions by the other connective. -/
theorem not_joinAll (kind : Connective) (ts : List Truth) :
    (kind.joinAll ts).not = kind.dual.joinAll (ts.map Truth.not) := by
  induction ts with
  | nil => cases kind <;> rfl
  | cons t ts ih =>
    have hstep : kind.joinAll (t :: ts) = kind.join t (kind.joinAll ts) := rfl
    rw [hstep, not_join, ih]
    rfl

end Connective

/-- The connective that joins the comparisons with all rows. -/
def Quantifier.connective : Quantifier → Connective
  | .any => .or
  | .all => .and

/-- Two values in some order are as a comparison says. -/
def Comparison.holds : Comparison → Ordering → Bool
  | .eq, o => o = .eq
  | .notEq, o => o ≠ .eq
  | .lt, o => o = .lt
  | .ltEq, o => o ≠ .gt
  | .gt, o => o = .gt
  | .gtEq, o => o ≠ .lt

/-- The order of two values in a sort that goes in a direction. -/
def Direction.sorted : Direction → Ordering → Ordering
  | .ascending, o => o
  | .descending, o => o.swap

/-- The order of NULL before or after other values. -/
def NullPlacement.order : NullPlacement → Ordering
  | .first => .lt
  | .last => .gt

/-- The direction in which a test for NULL places NULL. -/
def NullPlacement.testDirection : NullPlacement → Direction
  | .first => .descending
  | .last => .ascending

/-! ### Interpretations -/

/-- What a join means. -/
inductive JoinMeaning (ρ : Type)
  | on (kind : JoinKind) (table : TableRef) (condition : ρ → Value)
  | cross (table : TableRef)

/-- What the clauses of a select mean. Sort keys mean an order of rows. -/
structure SelectMeaning (ρ : Type) where
  distinct : Bool
  items : List ((ρ → Value) × Option String)
  source : TableRef
  joins : List (JoinMeaning ρ)
  filter? : Option (ρ → Value)
  groupBy : List (Option String × String)
  having? : Option (ρ → Value)
  order : ρ → ρ → Ordering
  limit? : Option Nat
  offset? : Option Nat

/-- An engine with its data, where `ρ` is the type of rows. -/
structure Interpretation (ρ : Type) where
  column : Option String → String → ρ → Value
  /-- How two values compare that are not NULL. -/
  compare : Value → Value → Ordering
  compare_bool : ∀ a b : Bool, compare (.bool a) (.bool b) = Ord.compare a b
  /-- A text is as a pattern says; neither is NULL. -/
  isLike : Value → Value → Bool
  /-- The result of an operator on operands that are not NULL. -/
  calculate : Arithmetic → Value → Value → Value
  /-- The negative of a value that is not NULL. -/
  negative : Value → Value
  rowCount : ρ → Value
  /-- The result of a function, of all values or of the distinct ones, in a row. -/
  call : SqlFunction → Bool → List (ρ → Value) → ρ → Value
  /-- Where NULL is put by a sort that does not say so. -/
  placement : Direction → NullPlacement
  /-- The rows of a subquery as they are seen from a row. -/
  rows : SelectMeaning ρ → ρ → List (List Value)

/-- The engine without any data. -/
instance {ρ : Type} : Inhabited (Interpretation ρ) where
  default :=
    { column := fun _ _ _ => .null
      compare := fun
        | .bool a, .bool b => Ord.compare a b
        | _, _ => .eq
      compare_bool := fun _ _ => rfl
      isLike := fun _ _ => false
      calculate := fun _ _ _ => .null
      negative := fun _ => .null
      rowCount := fun _ => .null
      call := fun _ _ _ _ => .null
      placement := fun _ => .last
      rows := fun _ _ => [] }

namespace Interpretation

variable {ρ : Type} (I : Interpretation ρ)

/-- The truth value of a comparison. -/
def compared (op : Comparison) (a b : Value) : Truth :=
  if a.isNull || b.isNull then none else some (op.holds (I.compare a b))

/-- The truth value of a match. -/
def matched (a b : Value) : Truth :=
  if a.isNull || b.isNull then none else some (I.isLike a b)

/-- An operand as it is matched. -/
def matchedOperand (m : PatternMatch) (e : ρ → Value) : ρ → Value :=
  if m.ignoresCase then I.call .lower false [e] else e

/-- What a binary operator means. -/
def operate (op : BinaryOp) (l r : ρ → Value) (x : ρ) : Value :=
  match op with
  | .compare op => (I.compared op (l x) (r x)).value
  | .pattern m =>
    ((I.matched (I.matchedOperand m l x) (I.matchedOperand m r x)).negatedIf m.negated).value
  | .arithmetic op =>
    if (l x).isNull || (r x).isNull then .null else I.calculate op (l x) (r x)

/-- The truth value of a comparison with any or all of some values. -/
def quantified (op : Comparison) (quantifier : Quantifier) (a : Value) (bs : List Value) : Truth :=
  quantifier.connective.joinAll (bs.map (I.compared op a))

/-- The truth value of a membership test. -/
def membership (negated : Bool) (a : Value) (bs : List Value) : Truth :=
  (I.quantified .eq .any a bs).negatedIf negated

/-- The truth value of a test for a range. -/
def range (negated : Bool) (a low high : Value) : Truth :=
  (Connective.and.join (I.compared .gtEq a low) (I.compared .ltEq a high)).negatedIf negated

/-- The values of a subquery of one column. -/
def columnValues (s : SelectMeaning ρ) (x : ρ) : List Value :=
  (I.rows s x).map (List.headD · .null)

/-- The order of two values in a sort. -/
def sortOrder (direction : Direction) (nulls? : Option NullPlacement) (a b : Value) : Ordering :=
  let placement := nulls?.getD (I.placement direction)
  match a.isNull, b.isNull with
  | true, true => .eq
  | true, false => placement.order
  | false, true => placement.order.swap
  | false, false => direction.sorted (I.compare a b)

end Interpretation

/-! ### Evaluation -/

mutual

/-- What an expression means: its value in each row. -/
def SqlExpr.eval {ρ : Type} (I : Interpretation ρ) : SqlExpr → ρ → Value
  | .column qualifier? name => I.column qualifier? name
  | .value v => fun _ => v
  | .truth b => fun _ => .bool b
  | .negation e => fun x =>
    if (e.eval I x).isNull then .null else I.negative (e.eval I x)
  | .complement e => fun x => (e.eval I x).truth.not.value
  | .nullTest e negated => fun x => .bool ((e.eval I x).isNull != negated)
  | .binary l op r => I.operate op (l.eval I) (r.eval I)
  | .junction kind parts => fun x =>
    (kind.joinAll ((meaningsOf I parts).map fun m => (m x).truth)).value
  | .rowCount => I.rowCount
  | .call f distinct arguments => I.call f distinct (meaningsOf I arguments)
  | .listMembership e items negated => fun x =>
    (I.membership negated (e.eval I x) ((meaningsOf I items).map (· x))).value
  | .rowMembership e query negated => fun x =>
    (I.membership negated (e.eval I x) (I.columnValues (query.meaning I) x)).value
  | .range e low high negated => fun x =>
    (I.range negated (e.eval I x) (low.eval I x) (high.eval I x)).value
  | .existence query negated => fun x => .bool ((I.rows (query.meaning I) x).isEmpty == negated)
  | .quantified e op quantifier query => fun x =>
    (I.quantified op quantifier (e.eval I x) (I.columnValues (query.meaning I) x)).value

/-- What some expressions mean. -/
def meaningsOf {ρ : Type} (I : Interpretation ρ) : List SqlExpr → List (ρ → Value)
  | [] => []
  | e :: es => e.eval I :: meaningsOf I es

/-- What a clause means that may be missing. -/
def meaningOfClause {ρ : Type} (I : Interpretation ρ) : Option SqlExpr → Option (ρ → Value)
  | none => none
  | some e => some (e.eval I)

/-- What result columns mean. -/
def meaningsOfItems {ρ : Type} (I : Interpretation ρ) :
    List SqlItem → List ((ρ → Value) × Option String)
  | [] => []
  | ⟨e, alias?⟩ :: items => (e.eval I, alias?) :: meaningsOfItems I items

/-- What joins mean. -/
def meaningsOfJoins {ρ : Type} (I : Interpretation ρ) : List SqlJoin → List (JoinMeaning ρ)
  | [] => []
  | .on kind t condition :: js => .on kind t (condition.eval I) :: meaningsOfJoins I js
  | .cross t :: js => .cross t :: meaningsOfJoins I js

/-- The order of rows that sort keys mean: a key decides where those before it do not. -/
def orderOf {ρ : Type} (I : Interpretation ρ) : List SqlSortKey → ρ → ρ → Ordering
  | [], _, _ => .eq
  | ⟨e, direction, nulls?⟩ :: ks, x, y =>
    (I.sortOrder direction nulls? (e.eval I x) (e.eval I y)).then (orderOf I ks x y)

/-- What the clauses of a select mean. -/
def SqlSelect.meaning {ρ : Type} (I : Interpretation ρ) : SqlSelect → SelectMeaning ρ
  | ⟨distinct, items, source, joins, filter?, groupBy, having?, orderBy, limit?, offset?⟩ =>
    ⟨distinct, meaningsOfItems I items, source, meaningsOfJoins I joins, meaningOfClause I filter?,
      groupBy, meaningOfClause I having?, orderOf I orderBy, limit?, offset?⟩

end

/-- Membership in an empty list is known; in a list with NULL it is not, unless another item decides
it. -/
example (I : Interpretation Unit) :
    (SqlExpr.listMembership (.value .null) [] true).eval I () = .bool true ∧
      (SqlExpr.listMembership (.truth true) [.value .null] true).eval I () = .null :=
  ⟨rfl, rfl⟩

section Meaning

variable {ρ : Type} (I : Interpretation ρ)

/-- What a result column means. -/
def SqlItem.meaning (item : SqlItem) : (ρ → Value) × Option String :=
  (item.expr.eval I, item.alias?)

/-- What a join means. -/
def SqlJoin.meaning : SqlJoin → JoinMeaning ρ
  | .on kind t condition => .on kind t (condition.eval I)
  | .cross t => .cross t

theorem meaningsOf_eq (es : List SqlExpr) : meaningsOf I es = es.map (SqlExpr.eval I) := by
  induction es with
  | nil => rfl
  | cons e es ih => simp [meaningsOf, ih]

theorem meaningOfClause_eq (e? : Option SqlExpr) :
    meaningOfClause I e? = e?.map (SqlExpr.eval I) := by
  cases e? <;> rfl

theorem meaningsOfItems_eq (items : List SqlItem) :
    meaningsOfItems I items = items.map (SqlItem.meaning I) := by
  induction items with
  | nil => rfl
  | cons item items ih =>
    obtain ⟨e, alias?⟩ := item
    simp [meaningsOfItems, SqlItem.meaning, ih]

theorem meaningsOfJoins_eq (js : List SqlJoin) :
    meaningsOfJoins I js = js.map (SqlJoin.meaning I) := by
  induction js with
  | nil => rfl
  | cons j js ih => cases j <;> simp [meaningsOfJoins, SqlJoin.meaning, ih]

theorem SqlSelect.meaning_eq (s : SqlSelect) :
    s.meaning I =
      ⟨s.distinct, s.items.map (SqlItem.meaning I), s.source, s.joins.map (SqlJoin.meaning I),
        s.filter?.map (SqlExpr.eval I), s.groupBy, s.having?.map (SqlExpr.eval I),
        orderOf I s.orderBy, s.limit?, s.offset?⟩ := by
  cases s
  simp [meaning, meaningsOfItems_eq, meaningsOfJoins_eq, meaningOfClause_eq]

/-! ### Constructs that mean the same -/

namespace Interpretation

/-- What is not equal is what is not the same. -/
theorem not_compared_eq (a b : Value) : (I.compared .eq a b).not = I.compared .notEq a b := by
  unfold compared
  split
  · rfl
  · cases I.compare a b <;> rfl

/-- `NOT IN` is `!= ALL`, also where some of the values are NULL. -/
theorem membership_negated (a : Value) (bs : List Value) :
    I.membership true a bs = I.quantified .notEq .all a bs := by
  have hnot : Truth.not ∘ I.compared .eq a = I.compared .notEq a := funext (I.not_compared_eq a)
  calc I.membership true a bs
      = (Connective.or.joinAll (bs.map (I.compared .eq a))).not := rfl
    _ = Connective.and.joinAll ((bs.map (I.compared .eq a)).map Truth.not) :=
        Connective.not_joinAll .or _
    _ = I.quantified .notEq .all a bs := by
        rw [List.map_map, hnot]
        rfl

/-- A match that ignores case is a match of lower-cased operands. -/
theorem operate_lowered {m : PatternMatch} (h : m.ignoresCase = true) (l r : ρ → Value) :
    I.operate (.pattern ⟨false, m.negated⟩) (I.call .lower false [l]) (I.call .lower false [r]) =
      I.operate (.pattern m) l r := by
  funext x
  simp [operate, matchedOperand, h]

/-- Nothing is a member of an empty list. -/
@[simp] theorem membership_nil (negated : Bool) (a : Value) :
    I.membership negated a [] = some negated := by
  cases negated <;> rfl

/-- A test for NULL before the value itself places NULL: `true` comes after `false`. Where NULL is
put by the two keys themselves does not matter then. -/
theorem sortOrder_placed (direction : Direction) (nulls : NullPlacement)
    (tested? plain? : Option NullPlacement) (a b : Value) :
    (I.sortOrder nulls.testDirection tested? (.bool a.isNull) (.bool b.isNull)).then
        (I.sortOrder direction plain? a b) =
      I.sortOrder direction (some nulls) a b := by
  have hbool : ∀ b : Bool, (Value.bool b).isNull = false := fun _ => rfl
  simp only [sortOrder, hbool, I.compare_bool]
  cases a.isNull <;> cases b.isNull <;> cases nulls <;> rfl

end Interpretation

end Meaning

end TypedSql
