import TypedSql.Proofs.OperandOrder

/-!
# Ranges and their comparisons

An expression lies between two bounds if it is at least the one and at most the other. `BETWEEN`
takes its bounds much as these two comparisons take their right operands: it resolves them beside
the subject and compares their classes with that of the subject. But it does not ask a bound for a
class, as a comparison does. `Expr.TakesBound` says what it takes
(`Expr.between_eq_ok_iff_takesBound`): the right operands of the comparison, and operands without a
class that are no NULL literals, such as `MAX(NULL)` (`Operand.IsUnclassed`). Among columns and raw
values there are none of these.
-/

namespace TypedSql

/-- An expression without a class that is no NULL literal: no operator finds fault with it but those
that ask for a class. -/
def Operand.IsUnclassed (operand : Operand) : Prop :=
  ∃ e, operand = .expr e ∧ e.class? = none ∧ e.isNullLiteral = false

namespace Expr

/-- The comparison is accepted, and the operand becomes this right-hand side. -/
def Compares (subject : Expr) (op : Comparison) (operand : Operand) (bound : Expr) : Prop :=
  subject.operate (.compare op) operand = .ok (.binary subject (.compare op) bound)

/-- The operand becomes this right-hand side of the comparison, or it has no class and is the bound
itself, beside a subject that has an order. -/
def TakesBound (subject : Expr) (op : Comparison) (operand : Operand) (bound : Expr) : Prop :=
  subject.Compares op operand bound ∨
    (subject.IsOrderable ∧ subject.isNullLiteral = false ∧
      operand = .expr bound ∧ bound.class? = none ∧ bound.isNullLiteral = false)

/-- The bounds of a range come from operands that `BETWEEN` takes beside its subject. -/
def IsBounded : Expr → Prop
  | .range subject low high _ => ∃ lower upper : Operand,
    subject.TakesBound .gtEq lower low ∧ subject.TakesBound .ltEq upper high
  | _ => True

section Bounds

variable {tables : Set Table} {subject bound e f low high : Expr} {op : Comparison}
  {operand lower upper : Operand} {negated : Bool}

/-- What is not NULL has no class after it was resolved only if it had none before; it then comes
out as it was given. -/
theorem eq_of_resolve (hoperand : operand.isNull = false) (h : subject.resolve operand = .ok bound)
    (hclass : bound.class? = none) : operand = .expr bound := by
  obtain heq | ⟨v, hv, hresolve⟩ := resolve_eq_ok h
  · exact heq
  -- A raw value has a class unless it is NULL.
  · exfalso
    obtain ⟨-, rfl⟩ | ⟨type, w, -, -, rfl⟩ := resolveValue_eq_ok hresolve
    · have hnull : v = .null := by
        cases v with
        | null => rfl
        | _ => cases hclass
      subst hnull
      obtain rfl | rfl := hv <;> cases hoperand
    · cases hclass

theorem resolve_unclassed (hclass : e.class? = none) (hnull : e.isNullLiteral = false) :
    subject.resolve (.expr e) = .ok e := by
  unfold resolve
  split
  · rename_i heq
    cases heq
  · rename_i v heq
    cases heq
    cases v with
    | null => cases hnull
    | _ => cases hclass
  · rename_i heq
    cases heq
    rfl

/-- **An order compares expressions of one class that has an order.** -/
theorem compares_iff (hop : op.isOrdering = true) :
    subject.Compares op operand bound ↔
      subject.isNullLiteral = false ∧ operand.isNull = false ∧ subject.IsOrderable ∧
        subject.resolve operand = .ok bound ∧ bound.class? = subject.class? := by
  constructor
  · intro h
    obtain ⟨hsubject, ⟨-, ⟨-, hnull⟩ | ⟨-, hnull⟩⟩ |
      ⟨hoperand, right, hl, hresolve, hr, hagree, heq⟩⟩ := operate_eq_ok h
    · cases hnull
    · cases hnull
    · cases heq
      obtain ⟨hordering, -⟩ := BinaryOp.takes_of_checks hl hr (agree_of_expectComparable hagree)
      obtain ⟨found, hfound, hleft, hright⟩ := hordering hop
      exact ⟨hsubject, hoperand, ⟨found, hfound, hleft⟩, hresolve, hright.trans hleft.symm⟩
  · rintro ⟨hsubject, hoperand, ⟨found, hfound, hleft⟩, hresolve, hclass⟩
    have hclasses : (BinaryOp.compare op).operandClasses? = some ValueClass.orderable := by
      simp [BinaryOp.operandClasses?, hop]
    have hallowed : ∀ allowed, (BinaryOp.compare op).operandClasses? = some allowed →
        found ∈ allowed := fun _ h => Option.some.inj (hclasses.symm.trans h) ▸ hfound
    obtain ⟨hl, hr, hagree⟩ := checks_of_class? hleft (hclass.trans hleft) hallowed
    have hcomparable : subject.expectComparable bound (.binary (.compare op)) = .ok () :=
      expectSameClass_eq_ok_iff.2 hagree
    unfold Compares operate
    rw [if_neg (by simp [hsubject]), if_neg (by simp [hoperand])]
    exact bind_eq_ok.2 ⟨_, hl, bind_eq_ok.2 ⟨_, hresolve, bind_eq_ok.2 ⟨_, hr,
      bind_eq_ok.2 ⟨_, hcomparable, rfl⟩⟩⟩⟩

/-- An order is accepted only with its two sides. -/
theorem accepts_iff_exists_compares (hop : op.isOrdering = true) :
    subject.Accepts (.compare op) operand ↔ ∃ bound, subject.Compares op operand bound := by
  refine ⟨fun ⟨f, h⟩ => ?_, fun ⟨bound, h⟩ => ⟨_, h⟩⟩
  obtain ⟨-, ⟨-, ⟨heq, -⟩ | ⟨heq, -⟩⟩ | ⟨-, right, -, -, -, -, rfl⟩⟩ := operate_eq_ok h
  · cases heq
    cases hop
  · cases heq
    cases hop
  · exact ⟨right, h⟩

/-- A bound that is taken has the class of the subject or none. -/
theorem takesBound_iff (hop : op.isOrdering = true) :
    subject.TakesBound op operand bound ↔
      subject.isNullLiteral = false ∧ operand.isNull = false ∧ subject.IsOrderable ∧
        subject.resolve operand = .ok bound ∧ ValueClass.Agree subject.class? bound.class? := by
  unfold TakesBound
  rw [compares_iff hop]
  constructor
  · rintro (⟨hsubject, hoperand, horderable, hresolve, hclass⟩ |
      ⟨horderable, hsubject, rfl, hclass, hnull⟩)
    · refine ⟨hsubject, hoperand, horderable, hresolve, ?_⟩
      rw [hclass]
      exact fun _ _ hfound hfound' => Option.some.inj (hfound.symm.trans hfound')
    · refine ⟨hsubject, hnull, horderable, resolve_unclassed hclass hnull, ?_⟩
      rw [hclass]
      exact fun _ _ _ hfound => nomatch hfound
  · rintro ⟨hsubject, hoperand, horderable, hresolve, hagree⟩
    cases hclass : bound.class? with
    | some found =>
      obtain ⟨expected, -, hexpected⟩ := id horderable
      rw [hagree expected found hexpected hclass] at hexpected
      exact .inl ⟨hsubject, hoperand, horderable, hresolve, hexpected.symm⟩
    | none =>
      refine .inr ⟨horderable, hsubject, eq_of_resolve hoperand hresolve hclass, rfl, ?_⟩
      rw [isNullLiteral_resolve hresolve, hoperand]

/-- **What `BETWEEN` takes, and what becomes of it.** -/
theorem between_eq_ok_iff_takesBound :
    subject.between lower upper negated = .ok f ↔
      ∃ low high, f = .range subject low high negated ∧
        subject.TakesBound .gtEq lower low ∧ subject.TakesBound .ltEq upper high := by
  constructor
  · intro h
    obtain ⟨⟨hsubject, hlower, hupper⟩, horderable, low, high, hlow, hhigh, hagree, hagree', rfl⟩ :=
      between_eq_ok h
    exact ⟨low, high, rfl,
      (takesBound_iff rfl).2 ⟨hsubject, hlower, horderable, hlow, agree_of_expectComparable hagree⟩,
      (takesBound_iff rfl).2
        ⟨hsubject, hupper, horderable, hhigh, agree_of_expectComparable hagree'⟩⟩
  · rintro ⟨low, high, rfl, hlow, hhigh⟩
    obtain ⟨hsubject, hlower, horderable, hlow, hagree⟩ := (takesBound_iff rfl).1 hlow
    obtain ⟨-, hupper, -, hhigh, hagree'⟩ := (takesBound_iff rfl).1 hhigh
    have hcomparable : subject.expectComparable low (.range negated) = .ok () :=
      expectSameClass_eq_ok_iff.2 hagree
    have hcomparable' : subject.expectComparable high (.range negated) = .ok () :=
      expectSameClass_eq_ok_iff.2 hagree'
    unfold between
    rw [if_neg (by simp [hsubject, hlower, hupper])]
    exact bind_eq_ok.2 ⟨_, expectClass_eq_ok_iff.2 horderable, bind_eq_ok.2 ⟨_, hlow,
      bind_eq_ok.2 ⟨_, hhigh, bind_eq_ok.2 ⟨_, hcomparable, bind_eq_ok.2 ⟨_, hcomparable', rfl⟩⟩⟩⟩⟩

/-- No comparison by order takes an operand without a class. -/
theorem not_accepts_of_isUnclassed (hop : op.isOrdering = true) (h : operand.IsUnclassed) :
    ¬ subject.Accepts (.compare op) operand := by
  obtain ⟨e, rfl, hclass, hnull⟩ := h
  rw [accepts_iff_exists_compares hop]
  rintro ⟨bound, hbound⟩
  obtain ⟨-, -, ⟨found, -, hfound⟩, hresolve, heq⟩ := (compares_iff hop).1 hbound
  cases (resolve_unclassed hclass hnull).symm.trans hresolve
  rw [hclass, hfound] at heq
  cases heq

/-- Beside an operand that has a class, a bound is taken exactly if the comparison is accepted. -/
theorem TakesBound.compares (h : subject.TakesBound op operand bound)
    (hoperand : ¬ operand.IsUnclassed) : subject.Compares op operand bound :=
  h.resolve_right fun ⟨_, _, heq, hclass, hnull⟩ => hoperand ⟨bound, heq, hclass, hnull⟩

/-- Both comparisons are accepted. -/
def AcceptsBounds (subject : Expr) (lower upper : Operand) : Prop :=
  subject.Accepts (.compare .gtEq) lower ∧ subject.Accepts (.compare .ltEq) upper

/-- The range succeeds exactly if both comparisons do, unless a bound has no class. -/
theorem between_iff_acceptsBounds_iff :
    ((∃ f, subject.between lower upper negated = .ok f) ↔ subject.AcceptsBounds lower upper) ↔
      ∀ f, subject.between lower upper negated = .ok f →
        ¬ lower.IsUnclassed ∧ ¬ upper.IsUnclassed := by
  constructor
  · intro h f hf
    obtain ⟨hlower, hupper⟩ := h.1 ⟨f, hf⟩
    exact ⟨fun hunclassed => not_accepts_of_isUnclassed rfl hunclassed hlower,
      fun hunclassed => not_accepts_of_isUnclassed rfl hunclassed hupper⟩
  · intro h
    constructor
    · rintro ⟨f, hf⟩
      obtain ⟨hlower, hupper⟩ := h f hf
      obtain ⟨low, high, rfl, hlow, hhigh⟩ := between_eq_ok_iff_takesBound.1 hf
      exact ⟨⟨_, hlow.compares hlower⟩, ⟨_, hhigh.compares hupper⟩⟩
    · rintro ⟨hlower, hupper⟩
      obtain ⟨low, hlow⟩ := (accepts_iff_exists_compares rfl).1 hlower
      obtain ⟨high, hhigh⟩ := (accepts_iff_exists_compares rfl).1 hupper
      exact ⟨_, between_eq_ok_iff_takesBound.2 ⟨low, high, rfl, .inl hlow, .inl hhigh⟩⟩

/-- Of what a caller holds, MIN, MAX and COALESCE of NULL are the operands without a class. -/
theorem Built.isUnclassed_iff (h : e.Built tables) :
    (Operand.expr e).IsUnclassed ↔ e.IsClassless ∧ e ≠ .literal .null none := by
  have hclassless : e.class? = none ↔ e.IsClassless := (IsHeld.isClassed (.inl h)).2
  have hnull : e.isNullLiteral = false ↔ e ≠ .literal .null none := by
    rw [Bool.eq_false_iff]
    exact not_congr ⟨h.eq_null, fun heq => heq ▸ rfl⟩
  rw [← hclassless, ← hnull]
  exact ⟨fun ⟨_, heq, hclass⟩ => Operand.expr.inj heq ▸ hclass, fun hclass => ⟨e, rfl, hclass⟩⟩

theorem IsHeld.isBounded (h : e.IsHeld tables) : e.IsBounded := by
  obtain h | ⟨_, _, _, -, rfl⟩ := h
  · cases h.formed with
    | range _ _ _ hbetween =>
      obtain ⟨low, high, heq, hlow, hhigh⟩ := between_eq_ok_iff_takesBound.1 hbetween
      cases heq
      exact ⟨_, _, hlow, hhigh⟩
    | _ => trivial
  · trivial

end Bounds

/-- **A range takes what its two comparisons take, and bounds without a class.** For every subject
and every two operands, `BETWEEN` and `NOT BETWEEN` succeed exactly if each bound is taken, and then
hold the right-hand sides of the comparisons, or the bounds themselves where these have no class. So
a range whose comparisons are both accepted is accepted, with their right-hand sides as its bounds,
and a range is accepted exactly if its comparisons are, unless it is accepted with a bound without a
class. Such a bound is an expression other than a column: of what can be built, MIN, MAX or COALESCE
of NULL. All ranges in what is built have bounds of these two kinds. -/
theorem between_iff_comparisons (tables : Set Table) :
    (∀ (subject f : Expr) (lower upper : Operand) (negated : Bool),
      subject.between lower upper negated = .ok f ↔
        ∃ low high, f = .range subject low high negated ∧
          subject.TakesBound .gtEq lower low ∧ subject.TakesBound .ltEq upper high) ∧
      (∀ (subject : Expr) (lower upper : Operand) (negated : Bool),
        ((∃ f, subject.between lower upper negated = .ok f) ↔ subject.AcceptsBounds lower upper) ↔
          ∀ f, subject.between lower upper negated = .ok f →
            ¬ lower.IsUnclassed ∧ ¬ upper.IsUnclassed) ∧
      (∀ (subject low high : Expr) (lower upper : Operand) (negated : Bool),
        subject.Compares .gtEq lower low → subject.Compares .ltEq upper high →
          subject.between lower upper negated = .ok (.range subject low high negated)) ∧
      (∀ v : Value, ¬ (Operand.value v).IsUnclassed) ∧
      (∀ c : Column, ¬ (Operand.expr (.column c)).IsUnclassed) ∧
      (∀ e : Expr, e.Built tables →
        ((Operand.expr e).IsUnclassed ↔ e.IsClassless ∧ e ≠ .literal .null none)) ∧
      (∀ e : Expr, e.Built tables → e.Everywhere IsBounded fun _ => True) ∧
      ∀ s : Statement, s.Built tables → s.Everywhere IsBounded fun _ => True := by
  refine ⟨fun _ _ _ _ _ => between_eq_ok_iff_takesBound,
    fun _ _ _ _ => between_iff_acceptsBounds_iff,
    fun subject low high lower upper negated hlow hhigh => ?_, ?_, ?_,
    fun e he => he.isUnclassed_iff, fun e he => ?_, fun s hs => ?_⟩
  · exact between_eq_ok_iff_takesBound.2 ⟨low, high, rfl, .inl hlow, .inl hhigh⟩
  · rintro v ⟨e, heq, -⟩
    cases heq
  · rintro c ⟨e, heq, hclass, -⟩
    cases heq
    cases hclass
  · exact he.everywhere.imp (fun _ => IsHeld.isBounded) fun _ _ => trivial
  · exact hs.everywhere.imp (fun _ => IsHeld.isBounded) fun _ _ => trivial

end Expr

/-! ### A price between NULL and five -/

/-- The greatest of NULLs. -/
def maxOfNull : Expr :=
  .apply .max (.literal .null none)

/-- Whether the price is between a bound and five. -/
def priceUpToFive (low : Expr) : Expr :=
  .range (.column price) low (.literal (.int 5) (some .integer)) false

/-- The goods with such a price. -/
def goodsUpToFive (low : Expr) : Select :=
  { Select.ofTable goods with filter? := some (priceUpToFive low) }

theorem built_maxOfNull : maxOfNull.Built {goods} := by
  have hcall : Expr.call .max (.ofValue .null) = .ok maxOfNull := rfl
  exact .call (.ofValue .null) hcall

theorem built_priceUpToFive {low : Expr} {operand : Operand}
    (hoperand : ∀ x, operand.expr? = some x → x.Built {goods})
    (h : (Expr.column price).between operand (.value (.int 5)) false = .ok (priceUpToFive low)) :
    (priceUpToFive low).Built {goods} := by
  refine .between (.column ⟨goods, rfl, .head _⟩) hoperand ?_ h
  rintro _ ⟨⟩

theorem between_iff_comparisons_priceUpToFive :
    (Expr.column price).between (.value (.int 1)) (.value (.int 5)) false =
        .ok (priceUpToFive (.literal (.int 1) (some .integer))) ∧
      (Expr.column price).AcceptsBounds (.value (.int 1)) (.value (.int 5)) ∧
      maxOfNull.Built {goods} ∧ maxOfNull.IsClassless ∧
      (priceUpToFive (.literal (.int 1) (some .integer))).Built {goods} ∧
      (priceUpToFive (.literal (.int 1) (some .integer))).Everywhere Expr.IsBounded
        fun _ => True := by
  obtain ⟨-, hagree, hcompared, hvalue, -, hunclassed, hbuilt, -⟩ :=
    Expr.between_iff_comparisons {goods}
  have hlow : (Expr.column price).Compares .gtEq (.value (.int 1))
      (.literal (.int 1) (some .integer)) := rfl
  have hhigh : (Expr.column price).Compares .ltEq (.value (.int 5))
      (.literal (.int 5) (some .integer)) := rfl
  have hrange := hcompared _ _ _ _ _ false hlow hhigh
  have hprice := built_priceUpToFive (by rintro _ ⟨⟩) hrange
  have haccepted := ((hagree _ _ _ false).2 fun _ _ => ⟨hvalue _, hvalue _⟩).1 ⟨_, hrange⟩
  exact ⟨hrange, haccepted, built_maxOfNull,
    ((hunclassed _ built_maxOfNull).1 ⟨_, rfl, rfl, rfl⟩).1, hprice, hbuilt _ hprice⟩

/-- **A range is accepted with a bound that its comparison refuses**, in a statement that can be
built: the greatest of NULLs has no class, so the price cannot be compared with it by order, and yet
it is a bound of the price. The same goes for `NOT BETWEEN`. -/
theorem between_ne_comparisons_priceUpToFive :
    (Statement.select (goodsUpToFive maxOfNull)).Built {goods} ∧
      (Expr.column price).between (.expr maxOfNull) (.value (.int 5)) false =
        .ok (priceUpToFive maxOfNull) ∧
      (∃ f, (Expr.column price).between (.expr maxOfNull) (.value (.int 5)) true = .ok f) ∧
      (Expr.column price).operate (.compare .gtEq) (.expr maxOfNull) =
        .error (.nullOperand (.binary (.compare .gtEq))) ∧
      ¬ (Expr.column price).AcceptsBounds (.expr maxOfNull) (.value (.int 5)) ∧
      ((Statement.select (goodsUpToFive maxOfNull)).compile .postgres).sql =
        "SELECT \"price\" FROM \"goods\" WHERE \"price\" BETWEEN MAX($1) AND $2" ∧
      ((Statement.select (goodsUpToFive maxOfNull)).compile .postgres).parameters =
        [.null, .int 5] := by
  have hrange : (Expr.column price).between (.expr maxOfNull) (.value (.int 5)) false =
      .ok (priceUpToFive maxOfNull) := rfl
  have hbuilt : (priceUpToFive maxOfNull).Built {goods} := by
    refine built_priceUpToFive ?_ hrange
    rintro _ ⟨⟩
    exact built_maxOfNull
  have hfilter : (Select.ofTable goods).step (.filterBy (priceUpToFive maxOfNull)) =
      .ok (goodsUpToFive maxOfNull) := rfl
  have hrefused : (Expr.column price).operate (.compare .gtEq) (.expr maxOfNull) =
      .error (.nullOperand (.binary (.compare .gtEq))) := rfl
  refine ⟨.select (.filterBy (.ofTable rfl) hbuilt hfilter), hrange, ⟨_, rfl⟩, hrefused, ?_, rfl,
    rfl⟩
  rintro ⟨⟨f, hf⟩, -⟩
  rw [hrefused] at hf
  cases hf

end TypedSql
