import TypedSql.Expr.ParameterCount
import TypedSql.Select

/-!
# Compound selects

A compound select combines the rows of several selects of one width with set operators. Ordering and
limits belong to the compound and not to its members, and it is ordered by result columns of its
first member.
-/

namespace TypedSql

/-- Selects combined with set operators. -/
structure CompoundSelect where
  first : Select
  rest : List (SetOperator × Select)
  orderBy : List SortKey
  limit? : Option Nat
  offset? : Option Nat

namespace CompoundSelect

/-- A select that is not ordered or limited itself, as the only member. -/
def ofSelect (s : Select) : Except BuildError CompoundSelect :=
  if s.hasPaging then .error .memberPaging else .ok ⟨s, [], [], none, none⟩

/-- The members in order. -/
def members (c : CompoundSelect) : List Select :=
  c.first :: c.rest.map Prod.snd

/-- The number of result columns. -/
def outputWidth (c : CompoundSelect) : Nat :=
  c.first.outputWidth

/-- Combine with another member of the same width. -/
def combine (c : CompoundSelect) (op : SetOperator) (member : Select) :
    Except BuildError CompoundSelect :=
  if member.hasPaging then .error .memberPaging
  else if c.first.outputWidth = member.outputWidth then
    .ok { c with rest := c.rest ++ [(op, member)] }
  else .error (.widthsDiffer c.first.outputWidth member.outputWidth)

/-- Add a sort key, which has to be a result column of the first member. -/
def sort (c : CompoundSelect) (k : SortKey) : Except BuildError CompoundSelect := do
  k.expr.expectBound [c.first.source.ref]
  match k.expr.column? with
  | some column =>
    if c.first.projects column then return { c with orderBy := c.orderBy ++ [k] }
    else .error (.notResultColumn k.expr.describe)
  | none => .error (.notResultColumn k.expr.describe)

/-- Return at most so many rows. -/
def limit (c : CompoundSelect) (n : Nat) : CompoundSelect :=
  { c with limit? := some n }

/-- Leave out so many rows. -/
def offset (c : CompoundSelect) (n : Nat) : CompoundSelect :=
  { c with offset? := some n }

/-- The number of parameters of a compound select where every part of it is written once. -/
def parameterCount (c : CompoundSelect) : Nat :=
  totalOf Select.parameterCount c.members + totalOf (fun k => k.expr.parameterCount) c.orderBy

/-- A step of building a compound select. -/
inductive Step
  | combine (op : SetOperator) (member : Select)
  | sort (k : SortKey)
  | limit (n : Nat)
  | offset (n : Nat)

/-- Perform a step. -/
def step (c : CompoundSelect) : Step → Except BuildError CompoundSelect
  | .combine op member => c.combine op member
  | .sort k => c.sort k
  | .limit n => .ok (c.limit n)
  | .offset n => .ok (c.offset n)

end CompoundSelect

/-- Combine two selects. -/
def Select.combine (s : Select) (op : SetOperator) (member : Select) :
    Except BuildError CompoundSelect := do
  let c ← CompoundSelect.ofSelect s
  c.combine op member

end TypedSql
