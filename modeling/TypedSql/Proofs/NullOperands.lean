import TypedSql.Proofs.Binding

/-!
# NULL and operators

`Expr.operands` are the operands of a node that is an operator. In what is built, a NULL literal is
an operand in one place only (`Expr.KeepsNullOut`): it may be the subject of a test for rows of a
subquery, the one operator that looks at classes but not for NULL.

`Application` is an operator with all that it is applied to. Applied to a NULL, on whatever side,
equality comes out as a test for NULL, the test for rows of a subquery comes out as itself, and every
other operator is refused: `Application.outcome_of_isNull`.
-/

namespace TypedSql

@[simp] theorem Operand.isNull_expr (e : Expr) : (Operand.expr e).isNull = e.isNullLiteral :=
  rfl

namespace Expr

/-- The operands of an operator; a call, a test for NULL and a test for existence are none. -/
def operands : Expr → List Expr
  | .negation e | .complement e => [e]
  | .binary l _ r => [l, r]
  | .junction _ parts => parts
  | .listMembership e items _ => e :: items
  | .rowMembership e _ _ | .quantified e _ _ _ => [e]
  | .range e low high _ => [e, low, high]
  | .column _ | .literal _ _ | .nullTest _ _ | .existence _ _ => []
  | .rowCount | .valueCount _ _ | .apply _ _ | .orElse _ _ | .extremum _ _ _ _ | .joinedText _ _ =>
    []

/-- A NULL literal is no operand, except as the subject of a test for rows of a subquery. -/
def KeepsNullOut (e : Expr) : Prop :=
  ∀ x ∈ e.operands, x.isNullLiteral = true →
    ∃ (query : Select) (negated : Bool), e = .rowMembership x query negated

section Nodes

variable {tables : Set Table} {e f : Expr} {operand : Operand}

theorem eq_null_of_isNullLiteral (h : e.isNullLiteral = true) :
    ∃ type?, e = .literal .null type? := by
  unfold isNullLiteral at h
  split at h
  · exact ⟨_, rfl⟩
  · cases h

/-- A NULL literal that a caller holds has no type, and so no class. -/
theorem Built.eq_null (h : e.Built tables) (hnull : e.isNullLiteral = true) :
    e = .literal .null none := by
  obtain ⟨type?, rfl⟩ := eq_null_of_isNullLiteral hnull
  cases h.formed
  rfl

/-- What has a known class is not a NULL literal that a caller holds. -/
theorem Built.isNullLiteral_eq_false {found : ValueClass} (h : e.Built tables)
    (hclass : e.class? = some found) : e.isNullLiteral = false := by
  refine Bool.eq_false_iff.2 fun hnull => ?_
  rw [h.eq_null hnull] at hclass
  cases hclass

theorem isNull_resolveValue {v : Value} (h : e.resolveValue v = .ok f) :
    f.isNullLiteral = v.isNull := by
  obtain ⟨-, rfl⟩ | ⟨type, w, -, hw, rfl⟩ := resolveValue_eq_ok h
  · cases v <;> rfl
  · have hiff := ColumnDecl.encode_eq_null_iff hw
    cases v <;> cases w <;> simp_all [isNullLiteral, Value.isNull]

/-- An operand is NULL before it is encoded if it is NULL after that. -/
theorem isNullLiteral_resolve (h : e.resolve operand = .ok f) :
    f.isNullLiteral = operand.isNull := by
  obtain rfl | ⟨v, rfl | rfl, h⟩ := resolve_eq_ok h
  · rfl
  · exact isNull_resolveValue h
  · rw [isNull_resolveValue h]
    cases v <;> rfl

/-- No operand is NULL. -/
theorem keepsNullOut_of_forall (h : ∀ x ∈ e.operands, x.isNullLiteral = false) :
    e.KeepsNullOut := by
  intro x hx hnull
  rw [h x hx] at hnull
  cases hnull

theorem Formed.keepsNullOut (h : e.Formed tables) : e.KeepsNullOut := by
  cases h with
  | column | untyped | nullTest | rowCount | valueCount | apply | orElse | extremum | joinedText
  | existence => exact keepsNullOut_of_forall (List.forall_mem_nil _)
  | negation he h =>
    obtain ⟨⟨_, -, hclass⟩, -⟩ := neg_eq_ok h
    exact keepsNullOut_of_forall (List.forall_mem_singleton.2 (he.isNullLiteral_eq_false hclass))
  | complement he h =>
    obtain ⟨⟨_, -, hclass⟩, -⟩ := not_eq_ok h
    exact keepsNullOut_of_forall (List.forall_mem_singleton.2 (he.isNullLiteral_eq_false hclass))
  | junction hparts =>
    refine keepsNullOut_of_forall fun part hpart => ?_
    obtain ⟨hbuilt, hclass, -⟩ := hparts part hpart
    exact hbuilt.isNullLiteral_eq_false hclass
  | binary _ _ h =>
    obtain ⟨hleft, ⟨-, ⟨-, h⟩ | ⟨-, h⟩⟩ | ⟨hnull, right, -, hright, -, -, h⟩⟩ :=
      operate_eq_ok h <;> cases h
    rw [← isNullLiteral_resolve hright] at hnull
    exact keepsNullOut_of_forall
      (List.forall_mem_cons.2 ⟨hleft, List.forall_mem_singleton.2 hnull⟩)
  | listMembership _ _ h =>
    obtain ⟨hsubject, items, hitems, h⟩ := inList_eq_ok h
    cases h
    refine keepsNullOut_of_forall (List.forall_mem_cons.2 ⟨hsubject, fun item hitem => ?_⟩)
    obtain ⟨operand, -, hcounterpart⟩ := hitems item hitem
    obtain ⟨hnull, hresolve, -⟩ := counterpart_eq_ok hcounterpart
    rwa [isNullLiteral_resolve hresolve]
  -- The subject of this test is not looked at.
  | rowMembership =>
    intro x hx _
    obtain rfl := List.mem_singleton.1 hx
    exact ⟨_, _, rfl⟩
  | range _ _ _ h =>
    obtain ⟨⟨hsubject, hlower, hupper⟩, -, low, high, hlow, hhigh, -, -, h⟩ := between_eq_ok h
    cases h
    rw [← isNullLiteral_resolve hlow] at hlower
    rw [← isNullLiteral_resolve hhigh] at hupper
    exact keepsNullOut_of_forall (List.forall_mem_cons.2
      ⟨hsubject, List.forall_mem_cons.2 ⟨hlower, List.forall_mem_singleton.2 hupper⟩⟩)
  | quantified _ _ h =>
    exact keepsNullOut_of_forall (List.forall_mem_singleton.2 (quantify_eq_ok h).1)

theorem IsHeld.keepsNullOut (h : e.IsHeld tables) : e.KeepsNullOut := by
  obtain h | ⟨_, _, _, -, rfl⟩ := h
  · exact h.formed.keepsNullOut
  · exact keepsNullOut_of_forall (List.forall_mem_nil _)

/-- No operand of a list that is accepted is NULL. -/
theorem counterparts_isNull {subject : Expr} {construct : Construct} {operands : List Operand}
    {es : List Expr} (h : subject.counterparts construct operands = .ok es) :
    ∀ operand ∈ operands, operand.isNull = false := by
  induction operands generalizing es with
  | nil => exact List.forall_mem_nil _
  | cons operand operands ih =>
    obtain ⟨e, he, h⟩ := bind_eq_ok.1 h
    obtain ⟨rest, hrest, -⟩ := bind_eq_ok.1 h
    exact List.forall_mem_cons.2 ⟨(counterpart_eq_ok he).1, ih hrest⟩

/-- A subquery goes with NULL whatever its only result column is. -/
theorem expectSubquery_null (query : Select) (construct : Construct) :
    (Expr.literal .null none).expectSubquery query construct = .ok () ↔ query.outputWidth = 1 := by
  rw [← Select.length_outputClasses, List.length_eq_one_iff]
  unfold expectSubquery
  split
  · rename_i found? hclasses
    simp [hclasses, expectSameClass, class?, Value.class?]
  · rename_i hclasses
    simpa using hclasses

end Nodes

end Expr

/-! ### Applying an operator -/

/-- An operator and what it is applied to. -/
inductive Application
  | neg (e : Expr)
  | not (e : Expr)
  | operate (left : Expr) (op : BinaryOp) (operand : Operand)
  | between (subject : Expr) (low high : Operand) (negated : Bool)
  | inList (subject : Expr) (operands : List Operand) (negated : Bool)
  | inSelect (subject : Expr) (query : Select) (negated : Bool)
  | quantify (subject : Expr) (op : BinaryOp) (quantifier : Quantifier) (query : Select)
  | chain (kind : Connective) (es : List Expr)

namespace Application

/-- All operands, on both sides. -/
def operands : Application → List Operand
  | .neg e | .not e => [.expr e]
  | .operate left _ operand => [.expr left, operand]
  | .between subject low high _ => [.expr subject, low, high]
  | .inList subject operands _ => .expr subject :: operands
  | .inSelect subject _ _ | .quantify subject _ _ _ => [.expr subject]
  | .chain _ es => es.map .expr

/-- The expression that comes out, or why there is none. -/
def outcome : Application → Except BuildError Expr
  | .neg e => e.neg
  | .not e => e.not
  | .operate left op operand => left.operate op operand
  | .between subject low high negated => subject.between low high negated
  | .inList subject operands negated => subject.inList operands negated
  | .inSelect subject query negated => subject.inSelect query negated
  | .quantify subject op quantifier query => subject.quantify op quantifier query
  | .chain kind es => Expr.chain kind es

/-- What comes out when an operand is NULL: a test for NULL from equality with something else, and
a test for rows of a subquery that has one result column. -/
def nullOutcome? : Application → Option Expr
  | .operate left (.compare .eq) _ => if left.isNullLiteral then none else some left.isNull
  | .operate left (.compare .notEq) _ => if left.isNullLiteral then none else some left.isNotNull
  | .inSelect subject query negated =>
    if query.outputWidth = 1 then some (.rowMembership subject query negated) else none
  | _ => none

/-- The operands are raw values and built expressions. -/
def IsGiven (tables : Set Table) (a : Application) : Prop :=
  ∀ operand ∈ a.operands, ∀ x, operand.expr? = some x → x.Built tables

theorem toOption_eq_none {ε α : Type} {x : Except ε α} (h : ∀ a, x ≠ .ok a) :
    x.toOption = none := by
  cases x with
  | ok a => exact absurd rfl (h a)
  | error fault => rfl

section Outcomes

variable {tables : Set Table} {e left subject : Expr} {op : BinaryOp} {operand low high : Operand}

/-- A caller's NULL is no operand of an operator that asks for a class. -/
theorem not_class?_of_isNull (he : e.Built tables) (hnull : e.isNullLiteral = true)
    (found : ValueClass) : e.class? ≠ some found := by
  intro hclass
  rw [he.isNullLiteral_eq_false hclass] at hnull
  cases hnull

theorem operate_of_isNull (hnull : left.isNullLiteral = true ∨ operand.isNull = true) :
    (left.operate op operand).toOption = (Application.operate left op operand).nullOutcome? := by
  unfold Expr.operate
  split
  · rename_i hleft
    unfold nullOutcome?
    split <;> simp_all [Except.toOption]
  · rename_i hleft
    have hoperand : operand.isNull = true := hnull.resolve_left hleft
    rw [if_pos hoperand]
    unfold nullOutcome?
    split <;> simp_all [Except.toOption]

theorem between_of_isNull {negated : Bool} (hnull : subject.isNullLiteral = true ∨
    low.isNull = true ∨ high.isNull = true) :
    (subject.between low high negated).toOption = none := by
  refine toOption_eq_none fun f h => ?_
  obtain ⟨⟨hsubject, hlow, hhigh⟩, -⟩ := Expr.between_eq_ok h
  simp_all

theorem inList_of_isNull {operands : List Operand} {negated : Bool}
    (hnull : subject.isNullLiteral = true ∨ ∃ operand ∈ operands, operand.isNull = true) :
    (subject.inList operands negated).toOption = none := by
  refine toOption_eq_none fun f h => ?_
  unfold Expr.inList at h
  split at h
  · cases h
  · rename_i hsubject
    obtain ⟨items, hitems, -⟩ := bind_eq_ok.1 h
    obtain ⟨operand, hmem, hoperand⟩ := hnull.resolve_left hsubject
    rw [Expr.counterparts_isNull hitems operand hmem] at hoperand
    cases hoperand

theorem inSelect_of_isNull {query : Select} {negated : Bool} (he : e.Built tables)
    (hnull : e.isNullLiteral = true) :
    (e.inSelect query negated).toOption =
      if query.outputWidth = 1 then some (.rowMembership e query negated) else none := by
  obtain rfl := he.eq_null hnull
  split
  · rename_i hwidth
    rw [Expr.inSelect, (Expr.expectSubquery_null query _).2 hwidth]
    rfl
  · rename_i hwidth
    refine toOption_eq_none fun f h => ?_
    exact hwidth ((Expr.expectSubquery_null query _).1 (Expr.inSelect_eq_ok h).1)

theorem chain_of_isNull {kind : Connective} {es : List Expr} (hes : ∀ e ∈ es, e.Built tables)
    (hnull : ∃ e ∈ es, e.isNullLiteral = true) : (Expr.chain kind es).toOption = none := by
  refine toOption_eq_none fun f h => ?_
  obtain ⟨e, he, hnull⟩ := hnull
  exact not_class?_of_isNull (hes e he) hnull _ ((Expr.chain_eq_ok h).1 e he)

/-- What an operator with a NULL operand comes out as. -/
theorem outcome_of_isNull {a : Application} (ha : a.IsGiven tables)
    (hnull : ∃ operand ∈ a.operands, operand.isNull = true) :
    a.outcome.toOption = a.nullOutcome? := by
  cases a with
  | neg e =>
    refine toOption_eq_none fun f h => ?_
    obtain ⟨⟨_, -, hclass⟩, -⟩ := Expr.neg_eq_ok h
    exact not_class?_of_isNull (ha _ (.head _) e rfl) (by simpa [operands] using hnull) _ hclass
  | not e =>
    refine toOption_eq_none fun f h => ?_
    obtain ⟨⟨_, -, hclass⟩, -⟩ := Expr.not_eq_ok h
    exact not_class?_of_isNull (ha _ (.head _) e rfl) (by simpa [operands] using hnull) _ hclass
  | operate left op operand => exact operate_of_isNull (by simpa [operands] using hnull)
  | between subject low high negated =>
    exact between_of_isNull (by simpa [operands] using hnull)
  | inList subject items negated =>
    exact inList_of_isNull (by simpa [operands] using hnull)
  | inSelect subject query negated =>
    exact inSelect_of_isNull (ha _ (.head _) subject rfl) (by simpa [operands] using hnull)
  | quantify subject op quantifier query =>
    refine toOption_eq_none fun f h => ?_
    have hsubject : subject.isNullLiteral = true := by simpa [operands] using hnull
    rw [(Expr.quantify_eq_ok h).1] at hsubject
    cases hsubject
  | chain kind es =>
    refine chain_of_isNull (fun e he => ha (.expr e) (List.mem_map_of_mem he) e rfl) ?_
    simpa [operands] using hnull

end Outcomes

end Application

/-- **NULL reaches one operator.** In all that is built, a NULL literal is no operand but the subject
of a test for rows of a subquery. With a NULL operand, on whatever side, equality is a test for NULL,
that one operator is accepted where the subquery has one result column, and every other application
is refused. -/
theorem keepsNullOut_of_built (tables : Set Table) :
    (∀ e : Expr, e.Built tables → e.Everywhere Expr.KeepsNullOut fun _ => True) ∧
      (∀ s : Statement, s.Built tables → s.Everywhere Expr.KeepsNullOut fun _ => True) ∧
      ∀ a : Application, a.IsGiven tables → (∃ operand ∈ a.operands, operand.isNull = true) →
        a.outcome.toOption = a.nullOutcome? := by
  refine ⟨fun e he => ?_, fun s hs => ?_, fun a ha hnull => a.outcome_of_isNull ha hnull⟩
  · exact he.everywhere.imp (fun _ => Expr.IsHeld.keepsNullOut) fun _ _ => trivial
  · exact hs.everywhere.imp (fun _ => Expr.IsHeld.keepsNullOut) fun _ _ => trivial

theorem keepsNullOut_of_built_dearGoods :
    offeredForLess.Built {goods, offers} ∧ (Statement.select dearGoods).Built {goods, offers} ∧
      offeredForLess.KeepsNullOut ∧ dearGoods.Everywhere Expr.KeepsNullOut (fun _ => True) ∧
      Application.IsGiven {goods, offers} (.operate (.ofValue .null) (.compare .lt) (.value (.int 5))) ∧
      ((Expr.ofValue .null).operate (.compare .lt) (.value (.int 5))).toOption = none := by
  obtain ⟨hexpr, hstatement, hrefused⟩ := keepsNullOut_of_built {goods, offers}
  have hgiven : Application.IsGiven {goods, offers}
      (.operate (.ofValue .null) (.compare .lt) (.value (.int 5))) := by
    refine List.forall_mem_cons.2 ⟨?_, List.forall_mem_singleton.2 ?_⟩
    · rintro _ ⟨⟩
      exact .ofValue .null
    · rintro _ ⟨⟩
  exact ⟨built_offeredForLess, built_dearGoods, (hexpr _ built_offeredForLess).here,
    hstatement _ built_dearGoods, hgiven, hrefused _ hgiven ⟨_, .head _, rfl⟩⟩

/-- Whether NULL is among the prices of goods. -/
def nullAmongPrices : Expr :=
  .rowMembership (.literal .null none) (.ofTable goods) false

/-- The goods on condition that NULL is among their prices. -/
def goodsIfNullAmongPrices : Select :=
  { Select.ofTable goods with filter? := some nullAmongPrices }

/-- **NULL is an operand of an operator** in a built statement. -/
theorem isNullLiteral_operand_goodsIfNullAmongPrices :
    (Statement.select goodsIfNullAmongPrices).Built {goods} ∧
      goodsIfNullAmongPrices.filter? = some nullAmongPrices ∧
      (∃ x ∈ nullAmongPrices.operands, x.isNullLiteral = true) ∧
      ((Statement.select goodsIfNullAmongPrices).compile .postgres).sql =
        "SELECT \"price\" FROM \"goods\" WHERE $1 IN (SELECT \"price\" FROM \"goods\")" ∧
      ((Statement.select goodsIfNullAmongPrices).compile .postgres).parameters = [.null] := by
  have hgoods : goods ∈ ({goods} : Set Table) := rfl
  have haccepted : (Expr.ofValue .null).inSelect (.ofTable goods) false = .ok nullAmongPrices := rfl
  have hfilter : (Select.ofTable goods).step (.filterBy nullAmongPrices) =
      .ok goodsIfNullAmongPrices := rfl
  have hbuilt : goodsIfNullAmongPrices.Built {goods} := by
    refine .step (.ofTable hgoods) (List.forall_mem_singleton.2 ?_) ?_ ?_ hfilter
    · exact .inSelect (.ofValue .null) (.ofTable hgoods) haccepted
    · exact List.forall_mem_nil _
    · exact List.forall_mem_nil _
  exact ⟨.select hbuilt, rfl, ⟨_, .head _, rfl⟩, rfl, rfl⟩

end TypedSql
