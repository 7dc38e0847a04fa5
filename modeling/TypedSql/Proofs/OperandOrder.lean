import TypedSql.Proofs.Classes
import TypedSql.Proofs.NullOperands
import TypedSql.Proofs.TypedLiterals

/-!
# Literals on either side of a column

An operator encodes its right operand with the declared type of its left one. So a literal to the
right of a column has passed the codec of the column, and a literal to the left of a column is as
the caller gave it: only its class is compared with that of the column. `Expr.EncodesOnRight` says
this of a node, and it holds all over what is built.

Whether a column and a literal can be exchanged therefore depends on whether the codec of the type
and the class of the type judge the literal alike. `ColumnType.Disputes` are the values that they
differ over (`ColumnType.disputes_iff`): numbers and texts that the type has no room for, and texts
beside documents, which are written as texts but are a class of their own.
-/

namespace TypedSql

/-! ### Acceptance by classes -/

namespace Expr

/-- The operator can be applied. -/
def Accepts (left : Expr) (op : BinaryOp) (operand : Operand) : Prop :=
  ∃ e, left.operate op operand = .ok e

section Checks

variable {left right : Expr} {op : BinaryOp} {operand : Operand}

theorem expectOperand_of_class? {found : ValueClass} (hclass : left.class? = some found)
    (hallowed : ∀ allowed, op.operandClasses? = some allowed → found ∈ allowed) :
    left.expectOperand op = .ok () := by
  unfold expectOperand
  split
  · rename_i allowed hclasses
    exact expectClass_eq_ok_iff.2 ⟨found, hallowed allowed hclasses, hclass⟩
  · rfl

/-- Two operands of one class that an operator allows pass its checks. -/
theorem checks_of_class? {found : ValueClass} (hleft : left.class? = some found)
    (hright : right.class? = some found)
    (hallowed : ∀ allowed, op.operandClasses? = some allowed → found ∈ allowed) :
    left.expectOperand op = .ok () ∧ right.expectOperand op = .ok () ∧
      ValueClass.Agree left.class? right.class? := by
  refine ⟨expectOperand_of_class? hleft hallowed, expectOperand_of_class? hright hallowed, ?_⟩
  rw [hleft, hright]
  rintro _ _ ⟨⟩ ⟨⟩
  rfl

/-- Operands of classes that an operator takes pass its checks. -/
theorem checks_of_takes (h : op.Takes left.class? right.class?) :
    left.expectOperand op = .ok () ∧ right.expectOperand op = .ok () ∧
      ValueClass.Agree left.class? right.class? := by
  cases op with
  | compare comparison =>
    obtain ⟨hordering, hagree⟩ := h
    cases hcomparison : comparison.isOrdering with
    | false =>
      have hclasses : (BinaryOp.compare comparison).operandClasses? = none := by
        simp [BinaryOp.operandClasses?, hcomparison]
      refine ⟨?_, ?_, hagree⟩ <;> rw [expectOperand, hclasses]
    | true =>
      obtain ⟨found, hfound, hleft, hright⟩ := hordering hcomparison
      refine checks_of_class? hleft hright ?_
      simpa [BinaryOp.operandClasses?, hcomparison] using hfound
  | pattern m =>
    refine checks_of_class? h.1 h.2 ?_
    rintro _ ⟨⟩
    exact .head _
  | arithmetic a =>
    refine checks_of_class? h.1 h.2 ?_
    rintro _ ⟨⟩
    exact .head _

/-- Without NULL, an operator can be applied exactly if its right operand can be encoded and the
classes are ones that it takes. -/
theorem accepts_iff (hleft : left.isNullLiteral = false) (hoperand : operand.isNull = false) :
    left.Accepts op operand ↔
      ∃ right, left.resolve operand = .ok right ∧ op.Takes left.class? right.class? := by
  constructor
  · rintro ⟨e, h⟩
    obtain ⟨-, ⟨hnull, -⟩ | ⟨-, right, hl, hresolve, hr, hagree, -⟩⟩ := operate_eq_ok h
    · rw [hnull] at hoperand
      cases hoperand
    · exact ⟨right, hresolve, BinaryOp.takes_of_checks hl hr (agree_of_expectComparable hagree)⟩
  · rintro ⟨right, hresolve, htakes⟩
    obtain ⟨hl, hr, hagree⟩ := checks_of_takes htakes
    have hcomparable : left.expectComparable right (.binary op) = .ok () :=
      expectSameClass_eq_ok_iff.2 hagree
    refine ⟨.binary left op right, ?_⟩
    unfold operate
    rw [if_neg (by simp [hleft]), if_neg (by simp [hoperand])]
    exact bind_eq_ok.2 ⟨_, hl, bind_eq_ok.2 ⟨_, hresolve, bind_eq_ok.2 ⟨_, hr,
      bind_eq_ok.2 ⟨_, hcomparable, rfl⟩⟩⟩⟩

end Checks

end Expr

/-! ### What the codec and the class say of a value -/

/-- The values that a codec refuses although they are of the class of its type, and the texts that
the codec of documents accepts although they are of another class. -/
def ColumnType.Disputes : ColumnType → Value → Prop
  | .smallint, .int n => ¬ (-32768 ≤ n.toInt ∧ n.toInt ≤ 32767)
  | .integer, .int n => ¬ (-2147483648 ≤ n.toInt ∧ n.toInt ≤ 2147483647)
  | .smallint, .float _ | .integer, .float _ | .bigint, .float _ => True
  | .char limit, .text s | .varchar (some limit), .text s => limit < s.length
  | .json, .text _ => True
  | _, _ => False

section Codec

variable {t : ColumnType} {v : Value}

theorem ColumnType.exists_encodeWithin_iff {low high : Int} {n : Int64} :
    (∃ w, encodeWithin low high n = .ok w) ↔ low ≤ n.toInt ∧ n.toInt ≤ high := by
  simp [encodeWithin_eq_ok_iff]

theorem ColumnType.exists_encodeUpTo_iff {limit : Nat} {s : String} :
    (∃ w, encodeUpTo limit s = .ok w) ↔ s.length ≤ limit := by
  simp [encodeUpTo_eq_ok_iff]

/-- The disputed values are those that the codec and the class of a type judge differently. -/
theorem ColumnType.disputes_iff (hv : v ≠ .null) :
    t.Disputes v ↔ ¬ ((∃ w, t.encode v = .ok w) ↔ v.class? = some t.valueClass) := by
  cases v with
  | null => exact absurd rfl hv
  | _ =>
    obtain _ | _ | _ | _ | _ | _ | _ | _ | (_ | _) | _ | _ | _ | _ | _ | _ := t <;>
      simp [Disputes, encode, valueClass, Value.class?, exists_encodeWithin_iff,
        exists_encodeUpTo_iff]

end Codec

/-! ### A column and a literal -/

/-- The comparison that says the same with its operands exchanged. -/
def Comparison.mirrored : Comparison → Comparison
  | .eq => .eq
  | .notEq => .notEq
  | .lt => .gt
  | .ltEq => .gtEq
  | .gt => .lt
  | .gtEq => .ltEq

/-- The operator for exchanged operands: a comparison is mirrored. -/
def BinaryOp.mirrored : BinaryOp → BinaryOp
  | .compare comparison => .compare comparison.mirrored
  | op => op

/-- A mirrored operator takes the same classes. -/
theorem BinaryOp.takes_mirrored_iff {op : BinaryOp} {left? right? : Option ValueClass} :
    op.mirrored.Takes left? right? ↔ op.Takes left? right? := by
  cases op with
  | compare comparison => cases comparison <;> rfl
  | pattern | arithmetic => rfl

/-- A literal to the right of a column is one that the codec of the column has returned; one to the
left of a column is as it was given, of the class of the column. -/
def Expr.EncodesOnRight : Expr → Prop
  | .binary (.column c) _ (.literal v type?) =>
    v ≠ .null ∧ type? = some c.type ∧ c.type.encode v = .ok v
  | .binary (.literal v type?) _ (.column c) =>
    type? = none ∧ v.class? = some c.type.valueClass
  | _ => True

section Operands

variable {tables : Set Table} {c : Column} {e : Expr} {op : BinaryOp} {operand : Operand}
  {v : Value} {type? : Option ColumnType}

theorem Expr.isNullLiteral_literal_iff : (Expr.literal v type?).isNullLiteral = false ↔
    v ≠ .null := by
  cases v <;> simp [Expr.isNullLiteral]

theorem Expr.isNullLiteral_ofValue (hv : v ≠ .null) : (Expr.ofValue v).isNullLiteral = false :=
  isNullLiteral_literal_iff.2 hv

theorem Expr.class?_ofValue : (Expr.ofValue v).class? = v.class? :=
  rfl

/-- A value that is not NULL has a class, which is the one that it agrees with. -/
theorem Value.class?_of_agree {found : ValueClass} (hv : v ≠ .null)
    (h : ValueClass.Agree v.class? (some found)) : v.class? = some found := by
  cases v with
  | null => exact absurd rfl hv
  | _ => exact congrArg some (h _ _ rfl rfl)

/-- A literal that is built is an operand that stands for its value. -/
theorem Expr.Built.raw?_literal (h : (Expr.literal v type?).Built tables) :
    (Operand.expr (.literal v type?)).raw? = some v := by
  cases h.formed
  rfl

/-- A literal that has been put to the right of a column comes from its codec. -/
theorem Expr.encoded_of_resolve (hoperand : ∀ x, operand.expr? = some x → x.Built tables)
    (h : (Expr.column c).resolve operand = .ok (.literal v type?)) :
    type? = some c.type ∧ c.type.encode v = .ok v := by
  have hvalue : ∀ {w : Value}, (Expr.column c).resolveValue w = .ok (.literal v type?) →
      type? = some c.type ∧ c.type.encode v = .ok v := by
    intro w hw
    obtain ⟨htype, -⟩ | ⟨type, w', htype, hencode, hliteral⟩ := resolveValue_eq_ok hw
    · cases htype
    · cases htype
      cases hliteral
      exact ⟨rfl, ColumnType.encode_of_encode_eq_ok hencode⟩
  obtain rfl | ⟨w, -, hw⟩ := resolve_eq_ok h
  -- A literal that comes out as it was given had a type, so it is not one that a caller holds.
  · rw [resolve_raw (hoperand _ rfl).raw?_literal] at h
    exact hvalue h
  · exact hvalue hw

theorem Expr.encodesOnRight_of_operate (hleft : e.Built tables)
    (hoperand : ∀ x, operand.expr? = some x → x.Built tables) {right : Expr}
    (h : e.operate op operand = .ok (.binary e op right)) :
    (Expr.binary e op right).EncodesOnRight := by
  obtain ⟨hnull, ⟨-, ⟨-, h⟩ | ⟨-, h⟩⟩ | ⟨hnull', _, hl, hresolve, hr, hagree, h⟩⟩ :=
    operate_eq_ok h <;> cases h
  unfold EncodesOnRight
  split
  · rename_i heq
    cases heq
    refine ⟨?_, encoded_of_resolve hoperand hresolve⟩
    rw [← isNullLiteral_resolve hresolve] at hnull'
    exact isNullLiteral_literal_iff.1 hnull'
  · rename_i v _ _ _ heq
    cases heq
    cases hleft.formed
    exact ⟨rfl, Value.class?_of_agree (isNullLiteral_literal_iff.1 hnull)
      (agree_of_expectComparable hagree)⟩
  · trivial

theorem Expr.Formed.encodesOnRight (h : e.Formed tables) : e.EncodesOnRight := by
  cases h with
  | binary hleft hoperand h => exact encodesOnRight_of_operate hleft hoperand h
  | _ => trivial

theorem Expr.IsHeld.encodesOnRight (h : e.IsHeld tables) : e.EncodesOnRight := by
  obtain h | ⟨_, _, _, -, rfl⟩ := h
  · exact h.formed.encodesOnRight
  · trivial

/-- To the right of a column, the codec judges a literal. -/
theorem Column.accepts_literal_iff (hv : v ≠ .null) :
    (Expr.column c).Accepts op (.expr (.ofValue v)) ↔
      op.Takes (some c.type.valueClass) (some c.type.valueClass) ∧
        ∃ w, c.type.encode v = .ok w := by
  have hnull : (Operand.expr (.ofValue v)).isNull = false := Expr.isNullLiteral_ofValue hv
  rw [Expr.accepts_iff rfl hnull]
  have hraw : (Operand.expr (.ofValue v)).raw? = some v := rfl
  constructor
  · rintro ⟨right, hresolve, htakes⟩
    rw [Expr.resolve_raw hraw] at hresolve
    obtain ⟨htype, -⟩ | ⟨type, w, htype, hencode, rfl⟩ := Expr.resolveValue_eq_ok hresolve
    · cases htype
    · cases htype
      exact ⟨htakes, w, hencode⟩
  · rintro ⟨htakes, w, hencode⟩
    exact ⟨_, Expr.resolve_of_encode rfl hraw hencode, htakes⟩

/-- To the left of a column, the class judges a literal. -/
theorem Column.literal_accepts_iff (hv : v ≠ .null) :
    (Expr.ofValue v).Accepts op (.expr (.column c)) ↔
      op.Takes (some c.type.valueClass) (some c.type.valueClass) ∧
        v.class? = some c.type.valueClass := by
  rw [Expr.accepts_iff (Expr.isNullLiteral_ofValue hv) rfl]
  constructor
  · rintro ⟨_, ⟨⟩, htakes⟩
    obtain ⟨-, -, hagree⟩ := Expr.checks_of_takes htakes
    have hclass : v.class? = some c.type.valueClass := Value.class?_of_agree hv hagree
    rw [Expr.class?_ofValue, hclass] at htakes
    exact ⟨htakes, hclass⟩
  · rintro ⟨htakes, hclass⟩
    refine ⟨.column c, rfl, ?_⟩
    rwa [Expr.class?_ofValue, hclass]

end Operands

/-- **Literals are encoded on the right of a column only.** In all that is built, an operator whose
right operand is a literal beside a column holds what the codec of the column returned, with its
type; where the literal is on the left it is as it was given, without a type, and is of the class of
the column. A literal other than NULL to the right of a column is judged by the codec and one to the
left by its class; so the two orders are accepted or refused alike, as far as the operator takes the
class of the column at all, exactly for the literals that codec and class do not dispute. -/
theorem encodesOnRight_of_built (tables : Set Table) :
    (∀ e : Expr, e.Built tables → e.Everywhere Expr.EncodesOnRight fun _ => True) ∧
      (∀ s : Statement, s.Built tables → s.Everywhere Expr.EncodesOnRight fun _ => True) ∧
      ∀ (c : Column) (v : Value) (op : BinaryOp), v ≠ .null →
        ((Expr.column c).Accepts op (.expr (.ofValue v)) ↔
          op.Takes (some c.type.valueClass) (some c.type.valueClass) ∧
            ∃ w, c.type.encode v = .ok w) ∧
          ((Expr.ofValue v).Accepts op (.expr (.column c)) ↔
            op.Takes (some c.type.valueClass) (some c.type.valueClass) ∧
              v.class? = some c.type.valueClass) ∧
          (((Expr.column c).Accepts op (.expr (.ofValue v)) ↔
              (Expr.ofValue v).Accepts op.mirrored (.expr (.column c))) ↔
            (op.Takes (some c.type.valueClass) (some c.type.valueClass) →
              ¬ c.type.Disputes v)) := by
  refine ⟨fun e he => ?_, fun s hs => ?_, fun c v op hv => ?_⟩
  · exact he.everywhere.imp (fun _ => Expr.IsHeld.encodesOnRight) fun _ _ => trivial
  · exact hs.everywhere.imp (fun _ => Expr.IsHeld.encodesOnRight) fun _ _ => trivial
  · refine ⟨Column.accepts_literal_iff hv, Column.literal_accepts_iff hv, ?_⟩
    rw [Column.accepts_literal_iff hv, Column.literal_accepts_iff hv,
      BinaryOp.takes_mirrored_iff, ColumnType.disputes_iff hv, not_not, and_congr_right_iff]

theorem encodesOnRight_of_built_cheapGoods :
    (priceAgainst .lt 9).Built {goods} ∧ (Statement.select cheapGoods).Built {goods} ∧
      (priceAgainst .lt 9).EncodesOnRight ∧
      cheapGoods.Everywhere Expr.EncodesOnRight (fun _ => True) ∧ Value.int 9 ≠ .null ∧
      ((Expr.column price).Accepts (.compare .lt) (.expr (.ofValue (.int 9))) ↔
        (Expr.ofValue (.int 9)).Accepts (.compare .gt) (.expr (.column price))) := by
  obtain ⟨hexpr, hstatement, horders⟩ := encodesOnRight_of_built {goods}
  have hnotNull : Value.int 9 ≠ .null := nofun
  obtain ⟨-, -, hagree⟩ := horders price (.int 9) (.compare .lt) hnotNull
  exact ⟨built_priceAgainst, .select built_cheapGoods, (hexpr _ built_priceAgainst).here,
    hstatement _ (.select built_cheapGoods), hnotNull,
    hagree.2 fun _ => by simp [ColumnType.Disputes, price, Column.type]⟩

/-- A number that is no price, below the price. -/
def hugeBelowPrice : Expr :=
  .binary (.ofValue (.int 3000000000)) (.compare .lt) (.column price)

/-- The goods above a number that is no price. -/
def goodsAboveHuge : Select :=
  { Select.ofTable goods with filter? := some hugeBelowPrice }

/-- **A literal beside a column is not encoded** in a built statement, whose text compares the two;
the codec of the column refuses the literal, and so do the operators with the column on the left. -/
theorem not_encoded_goodsAboveHuge :
    (Statement.select goodsAboveHuge).Built {goods} ∧ goodsAboveHuge.filter? = some hugeBelowPrice ∧
      hugeBelowPrice =
        .binary (.literal (.int 3000000000) none) (.compare .lt) (.column price) ∧
      price.type.encode (.int 3000000000) =
        .error (.range 3000000000 (-2147483648) 2147483647) ∧
      (Expr.column price).operate (.compare .gt) (.expr (.ofValue (.int 3000000000))) =
        .error (.encoding "goods.price" (.range 3000000000 (-2147483648) 2147483647)) ∧
      ((Statement.select goodsAboveHuge).compile .postgres).sql =
        "SELECT \"price\" FROM \"goods\" WHERE $1 < \"price\"" ∧
      ((Statement.select goodsAboveHuge).compile .postgres).parameters = [.int 3000000000] := by
  have haccepted : (Expr.ofValue (.int 3000000000)).operate (.compare .lt) (.expr (.column price)) =
      .ok hugeBelowPrice := rfl
  have hfilter : (Select.ofTable goods).step (.filterBy hugeBelowPrice) = .ok goodsAboveHuge := rfl
  have hhuge : hugeBelowPrice.Built {goods} := by
    refine .operate (.ofValue _) ?_ haccepted
    rintro _ ⟨⟩
    exact .column ⟨goods, rfl, .head _⟩
  have hbuilt : goodsAboveHuge.Built {goods} := .filterBy (.ofTable rfl) hhuge hfilter
  exact ⟨.select hbuilt, rfl, rfl, rfl, rfl, rfl, rfl⟩

end TypedSql
