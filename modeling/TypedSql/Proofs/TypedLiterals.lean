import TypedSql.Proofs.Formation
import TypedSql.Proofs.Literals

/-!
# Literals with a type

A raw value beside an expression with a declared type becomes a literal that carries the type.
`ColumnType.Holds` says which values a type has room for; these are the values that its codec leaves
alone (`ColumnType.encode_eq_self_iff`), and what the codec returns is one of them. In all that is
built, a literal with a type holds a value of that type.

The declared type behind an expression and its class come from two recursions, which look at
different arguments of a call. They agree on every tree (`Expr.class?_of_type?`): an expression with
a type has the class of the type. So a value that the codec has accepted beside an expression is of
the class of that expression, and no comparison of classes refuses it.
-/

namespace TypedSql

/-- The values that a column of a type has room for; NULL is for the declaration to say. -/
def ColumnType.Holds : ColumnType → Value → Prop
  | _, .null => True
  | .smallint, .int n => -32768 ≤ n.toInt ∧ n.toInt ≤ 32767
  | .integer, .int n => -2147483648 ≤ n.toInt ∧ n.toInt ≤ 2147483647
  | .bigint, .int _ | .numeric, .int _ => True
  | .real, .float _ | .double, .float _ | .numeric, .float _ => True
  | .boolean, .bool _ => True
  | .char limit, .text s | .varchar (some limit), .text s => s.length ≤ limit
  | .varchar none, .text _ | .text, .text _ | .json, .text _ => True
  | .blob, .blob _ => True
  | .date, .timestamp _ | .time, .timestamp _ | .timestamp, .timestamp _ => True
  | _, _ => False

/-- The raw value that an operand is, or that it holds as a literal without a type. -/
def Operand.raw? : Operand → Option Value
  | .value v => some v
  | .expr (.literal v none) => some v
  | .expr _ => none

/-- A literal with a type holds a value of the type, and an expression with a type has its class. -/
structure Expr.FitsType (e : Expr) : Prop where
  holds : ∀ v t, e = .literal v (some t) → t.Holds v ∧ t.encode v = .ok v
  valueClass : ∀ t, e.type? = some t → e.class? = some t.valueClass

section Codec

variable {t : ColumnType} {v w : Value}

/-- The codec of a type leaves alone exactly the values that the type has room for. -/
theorem ColumnType.encode_eq_self_iff : t.encode v = .ok v ↔ t.Holds v := by
  fun_cases ColumnType.encode t v <;>
    simp_all [ColumnType.Holds, ColumnType.encodeWithin_eq_ok_iff, ColumnType.encodeUpTo_eq_ok_iff]

/-- What the codec of a type returns, the type has room for. -/
theorem ColumnType.holds_of_encode (h : t.encode v = .ok w) : t.Holds w :=
  encode_eq_self_iff.1 (encode_of_encode_eq_ok h)

end Codec

section Expressions

variable {tables : Set Table} {anchor e : Expr} {t : ColumnType} {v w : Value}

/-- An expression with a declared type has the class of that type. -/
theorem Expr.class?_of_type? : ∀ e : Expr, ∀ t, e.type? = some t → e.class? = some t.valueClass
  | .column _, _, h | .literal _ (some _), _, h => by
    cases h
    rfl
  | .apply .min e, t, h | .apply .max e, t, h => by
    rw [Expr.class?]
    exact Expr.class?_of_type? e t h
  -- The first argument has the type and so a class, which is the one that counts.
  | .orElse e _, t, h | .extremum _ e _ _, t, h => by
    simp [Expr.class?, Expr.class?_of_type? e t h]

theorem Expr.IsHeld.fitsType (h : e.IsHeld tables) : e.FitsType := by
  refine ⟨?_, Expr.class?_of_type? e⟩
  rintro v t rfl
  obtain h | ⟨_, _, _, hencode, h⟩ := h
  -- A literal that a caller holds has no type.
  · cases h.formed
  · cases h
    exact ⟨ColumnType.holds_of_encode hencode, ColumnType.encode_of_encode_eq_ok hencode⟩

theorem Expr.resolve_raw {operand : Operand} (h : operand.raw? = some v) :
    anchor.resolve operand = anchor.resolveValue v := by
  unfold Operand.raw? at h
  split at h
  · obtain rfl := Option.some.inj h
    rfl
  · obtain rfl := Option.some.inj h
    rfl
  · cases h

/-- A value that the codec accepts becomes a literal of its type. -/
theorem Expr.resolve_of_encode {operand : Operand} (htype : anchor.type? = some t)
    (hraw : operand.raw? = some v) (h : t.encode v = .ok w) :
    anchor.resolve operand = .ok (.literal w (some t)) := by
  rw [resolve_raw hraw, resolveValue, htype]
  simp only [h]

/-- A literal of the type of an expression can be compared with it. -/
theorem Expr.expectComparable_literal (htype : anchor.type? = some t) (construct : Construct) :
    anchor.expectComparable (.literal w (some t)) construct = .ok () := by
  refine expectSameClass_eq_ok_iff.2 fun expected found hanchor hliteral => ?_
  rw [class?_of_type? anchor t htype] at hanchor
  exact Option.some.inj (hanchor.symm.trans hliteral)

/-- A literal of the type of an expression is an operand where that expression is. -/
theorem Expr.expectOperand_literal {op : BinaryOp} (htype : anchor.type? = some t)
    (h : anchor.expectOperand op = .ok ()) :
    (Expr.literal w (some t)).expectOperand op = .ok () := by
  unfold expectOperand at h ⊢
  split at h
  · obtain ⟨found, hallowed, hfound⟩ := expectClass_eq_ok_iff.1 h
    rw [class?_of_type? anchor t htype] at hfound
    exact expectClass_eq_ok_iff.2 ⟨found, hallowed, hfound⟩
  · rfl

end Expressions

/-- **Literals fit their types.** In all that is built, at any depth, a literal with a type holds a
value of that type, which the codec leaves alone; so the codec changes nothing that it has returned.
An expression with a declared type has the class of that type; so a raw value that the codec accepts
beside an expression is refused by no comparison with the class of that expression. -/
theorem fitsType_of_built (tables : Set Table) :
    (∀ e : Expr, e.Built tables → e.Everywhere Expr.FitsType fun _ => True) ∧
      (∀ s : Statement, s.Built tables → s.Everywhere Expr.FitsType fun _ => True) ∧
      (∀ (t : ColumnType) (v w : Value), t.encode v = .ok w → t.Holds w ∧ t.encode w = .ok w) ∧
      ∀ (anchor : Expr) (t : ColumnType) (operand : Operand) (v w : Value),
        anchor.type? = some t → operand.raw? = some v → t.encode v = .ok w →
          anchor.resolve operand = .ok (.literal w (some t)) ∧
            (∀ construct, anchor.expectComparable (.literal w (some t)) construct = .ok ()) ∧
            (∀ op, anchor.expectOperand op = .ok () →
              (Expr.literal w (some t)).expectOperand op = .ok ()) ∧
            ∀ c clause, anchor = .column c →
              c.expectAssignable (.literal w (some t)) clause = .ok () := by
  refine ⟨fun e he => ?_, fun s hs => ?_, fun t v w h => ?_, ?_⟩
  · exact he.everywhere.imp (fun _ => Expr.IsHeld.fitsType) fun _ _ => trivial
  · exact hs.everywhere.imp (fun _ => Expr.IsHeld.fitsType) fun _ _ => trivial
  · exact ⟨ColumnType.holds_of_encode h, ColumnType.encode_of_encode_eq_ok h⟩
  · intro anchor t operand v w htype hraw hencode
    refine ⟨Expr.resolve_of_encode htype hraw hencode, Expr.expectComparable_literal htype,
      fun op => Expr.expectOperand_literal htype, ?_⟩
    rintro c clause rfl
    refine Column.expectAssignable_eq_ok_iff.2 fun found hfound => ?_
    cases htype
    exact (Option.some.inj hfound).symm

/-- The goods below a price. -/
def cheapGoods : Select :=
  { Select.ofTable goods with filter? := some (priceAgainst .lt 9) }

theorem built_priceAgainst : (priceAgainst .lt 9).Built {goods} := by
  have hprice : (Expr.column price).Built {goods} := .column ⟨goods, rfl, .head _⟩
  have hoperate : (Expr.column price).operate (.compare .lt) (.value (.int 9)) =
      .ok (priceAgainst .lt 9) := rfl
  exact .operate hprice (by rintro _ ⟨⟩) hoperate

theorem built_cheapGoods : cheapGoods.Built {goods} := by
  have hfilter : (Select.ofTable goods).step (.filterBy (priceAgainst .lt 9)) =
      .ok cheapGoods := rfl
  exact .filterBy (.ofTable rfl) built_priceAgainst hfilter

theorem fitsType_of_built_cheapGoods :
    (Statement.select cheapGoods).Built {goods} ∧
      cheapGoods.Everywhere Expr.FitsType (fun _ => True) ∧ ColumnType.integer.Holds (.int 9) ∧
      ¬ ColumnType.integer.Holds (.int 3000000000) ∧
      (Expr.apply .max (.column price)).resolve (.value (.int 9)) =
        .ok (.literal (.int 9) (some .integer)) ∧
      (Expr.apply .max (.column price)).expectComparable (.literal (.int 9) (some .integer))
        (.binary (.compare .lt)) = .ok () := by
  obtain ⟨-, hstatement, hcodec, hbeside⟩ := fitsType_of_built {goods}
  obtain ⟨hresolve, hcomparable, -⟩ :=
    hbeside (.apply .max (.column price)) .integer (.value (.int 9)) _ _ rfl rfl rfl
  exact ⟨.select built_cheapGoods, hstatement _ (.select built_cheapGoods),
    (hcodec .integer (.int 9) _ rfl).1, by simp [ColumnType.Holds], hresolve, hcomparable _⟩

end TypedSql
