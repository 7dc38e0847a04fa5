import TypedSql.Proofs.Binding

/-!
# Well-typed expressions and statements

`Expr.WellTyped` is the rule that the classes of the operands of one node follow, and
`Select.WellTyped` says that the conditions of a select are of class boolean. An expression has no
class only if its value can only be NULL, and `Expr.IsClassless` says of which shape it then is.

`Expr.IsTyped` and `Statement.IsTyped` ask for the rules at every node and every select, and that the
values of inserts and updates have the classes of their columns, or none. A column stands here for
all columns that are the same as it: `Column.Takes` asks for the class of one of them, and
`Column.takes_iff` says when that is the class of the column itself. Everything that is built is
typed in this sense.
-/

namespace TypedSql

/-- Two classes are not known to differ. -/
def ValueClass.Agree (class? other? : Option ValueClass) : Prop :=
  ∀ expected found, class? = some expected → other? = some found → expected = found

/-- The operands of a binary operator are of the classes that it compares or computes with. -/
def BinaryOp.Takes : BinaryOp → Option ValueClass → Option ValueClass → Prop
  | .compare comparison, left?, right? =>
    (comparison.isOrdering = true →
      ∃ found ∈ ValueClass.orderable, left? = some found ∧ right? = some found) ∧
    ValueClass.Agree left? right?
  | .pattern _, left?, right? => left? = some .text ∧ right? = some .text
  | .arithmetic _, left?, right? => left? = some .numeric ∧ right? = some .numeric

/-- The argument of a function is of the class that the function computes with. -/
def UnaryFunction.Takes : UnaryFunction → Option ValueClass → Prop
  | .sum, argument? | .avg, argument? => argument? = some .numeric
  | .lower, argument? | .upper, argument? => argument? = some .text
  | .min, _ | .max, _ | .arrayAgg, _ => True

namespace Expr

/-- The values of an expression have an order. -/
def IsOrderable (e : Expr) : Prop :=
  ∃ found ∈ ValueClass.orderable, e.class? = some found

/-- A subquery has one result column, whose class is not known to differ from that of an
expression. -/
def FitsSubquery (e : Expr) (query : Select) : Prop :=
  ∃ found?, query.outputClasses = [found?] ∧ ValueClass.Agree e.class? found?

/-- The rule of a node: its operands are of classes that it takes. -/
def WellTyped : Expr → Prop
  | .column _ | .literal _ _ | .nullTest _ _ | .rowCount | .valueCount _ _ | .existence _ _ => True
  | .negation e => e.class? = some .numeric
  | .complement e => e.class? = some .boolean
  | .binary l op r => op.Takes l.class? r.class?
  | .junction _ parts => ∀ part ∈ parts, part.class? = some .boolean
  | .apply f e => f.Takes e.class?
  | .orElse e fallback => ValueClass.Agree e.class? fallback.class?
  | .extremum _ first second rest =>
    first.IsOrderable ∧ ∀ x ∈ second :: rest, ValueClass.Agree first.class? x.class?
  | .joinedText e _ => e.class? = some .text
  | .listMembership e items _ => ∀ item ∈ items, ValueClass.Agree e.class? item.class?
  | .rowMembership e query _ => e.FitsSubquery query
  | .range e low high _ =>
    e.IsOrderable ∧ ValueClass.Agree e.class? low.class? ∧ ValueClass.Agree e.class? high.class?
  | .quantified e op _ query => (op.isOrdering = true → e.IsOrderable) ∧ e.FitsSubquery query

/-- NULL without a type, or a function of nothing else that returns one of its arguments. -/
inductive IsClassless : Expr → Prop
  | null : IsClassless (.literal .null none)
  | min {e : Expr} (he : IsClassless e) : IsClassless (.apply .min e)
  | max {e : Expr} (he : IsClassless e) : IsClassless (.apply .max e)
  | orElse {e fallback : Expr} (he : IsClassless e) (hfallback : IsClassless fallback) :
      IsClassless (.orElse e fallback)

end Expr

/-- The conditions of a select are of class boolean. -/
structure Select.WellTyped (s : Select) : Prop where
  joins : ∀ j ∈ s.joins, ∀ e, j.condition? = some e → e.class? = some .boolean
  filter : ∀ e, s.filter? = some e → e.class? = some .boolean
  having : ∀ e, s.having? = some e → e.class? = some .boolean

/-! ### Nodes -/

section Nodes

variable {tables : Set Table} {e f : Expr} {s s' : Select}

theorem Expr.expectOperand_eq_ok {op : BinaryOp} {allowed : List ValueClass}
    (h : e.expectOperand op = .ok ()) (hallowed : op.operandClasses? = some allowed) :
    ∃ found ∈ allowed, e.class? = some found := by
  unfold expectOperand at h
  rw [hallowed] at h
  exact expectClass_eq_ok_iff.1 h

theorem Expr.class?_of_textual (h : ∃ found ∈ ValueClass.textual, e.class? = some found) :
    e.class? = some .text := by
  obtain ⟨_, hfound, h⟩ := h
  rwa [List.mem_singleton.1 hfound] at h

theorem Expr.class?_of_arithmetic (h : ∃ found ∈ ValueClass.arithmetic, e.class? = some found) :
    e.class? = some .numeric := by
  obtain ⟨_, hfound, h⟩ := h
  rwa [List.mem_singleton.1 hfound] at h

theorem Expr.class?_of_predicate (h : ∃ found ∈ ValueClass.predicate, e.class? = some found) :
    e.class? = some .boolean := by
  obtain ⟨_, hfound, h⟩ := h
  rwa [List.mem_singleton.1 hfound] at h

theorem Expr.agree_of_expectComparable {construct : Construct}
    (h : e.expectComparable f construct = .ok ()) : ValueClass.Agree e.class? f.class? :=
  expectSameClass_eq_ok_iff.1 h

/-- Operands that passed the checks of an operator are of classes that it takes. -/
theorem BinaryOp.takes_of_checks {op : BinaryOp} {left right : Expr}
    (hleft : left.expectOperand op = .ok ()) (hright : right.expectOperand op = .ok ())
    (hagree : ValueClass.Agree left.class? right.class?) :
    op.Takes left.class? right.class? := by
  cases op with
  | compare comparison =>
    refine ⟨fun hordering => ?_, hagree⟩
    have hclasses : (BinaryOp.compare comparison).operandClasses? = some ValueClass.orderable := by
      simp [BinaryOp.operandClasses?, hordering]
    obtain ⟨found, hfound, hl⟩ := Expr.expectOperand_eq_ok hleft hclasses
    obtain ⟨found', -, hr⟩ := Expr.expectOperand_eq_ok hright hclasses
    obtain rfl := hagree _ _ hl hr
    exact ⟨found, hfound, hl, hr⟩
  | pattern m =>
    exact ⟨Expr.class?_of_textual (Expr.expectOperand_eq_ok hleft rfl),
      Expr.class?_of_textual (Expr.expectOperand_eq_ok hright rfl)⟩
  | arithmetic a =>
    exact ⟨Expr.class?_of_arithmetic (Expr.expectOperand_eq_ok hleft rfl),
      Expr.class?_of_arithmetic (Expr.expectOperand_eq_ok hright rfl)⟩

/-- What a function asks for is what it takes. -/
theorem UnaryFunction.takes_of_check {g : UnaryFunction}
    (h : ∀ allowed, g.argumentClasses? = some allowed → ∃ found ∈ allowed, e.class? = some found) :
    g.Takes e.class? := by
  cases g with
  | sum | avg => exact Expr.class?_of_arithmetic (h _ rfl)
  | lower | upper => exact Expr.class?_of_textual (h _ rfl)
  | min | max | arrayAgg => trivial

/-- What passed the checks of its builder follows the rule of its node. -/
theorem Expr.Formed.wellTyped (h : e.Formed tables) : e.WellTyped := by
  cases h with
  | column | untyped | nullTest | rowCount | valueCount | existence => trivial
  | negation _ h => exact class?_of_arithmetic (neg_eq_ok h).1
  | complement _ h => exact class?_of_predicate (not_eq_ok h).1
  | binary _ _ h =>
    obtain ⟨-, ⟨-, ⟨-, h⟩ | ⟨-, h⟩⟩ | ⟨-, right, hleft, -, hright, hagree, h⟩⟩ :=
      operate_eq_ok h <;> cases h
    exact BinaryOp.takes_of_checks hleft hright (agree_of_expectComparable hagree)
  | junction hparts => exact fun part hpart => (hparts part hpart).2.1
  | apply _ h => exact UnaryFunction.takes_of_check (call_eq_ok h).1
  | orElse _ _ h =>
    obtain ⟨_, -, hagree, h⟩ := coalesce_eq_ok h
    cases h
    exact agree_of_expectComparable hagree
  | extremum _ _ h =>
    obtain ⟨horderable, hothers⟩ := pick_eq_extremum h
    refine ⟨horderable, fun x hx => ?_⟩
    obtain ⟨_, -, hcounterpart⟩ := hothers x hx
    exact agree_of_expectComparable (counterpart_eq_ok hcounterpart).2.2
  | joinedText _ h => exact class?_of_textual (stringAgg_eq_ok h).1
  | listMembership _ _ h =>
    obtain ⟨-, items, hitems, h⟩ := inList_eq_ok h
    cases h
    intro item hitem
    obtain ⟨_, -, hcounterpart⟩ := hitems item hitem
    exact agree_of_expectComparable (counterpart_eq_ok hcounterpart).2.2
  | rowMembership _ _ h => exact expectSubquery_eq_ok (inSelect_eq_ok h).1
  | range _ _ _ h =>
    obtain ⟨-, horderable, _, _, -, -, hlow, hhigh, h⟩ := between_eq_ok h
    cases h
    exact ⟨horderable, agree_of_expectComparable hlow, agree_of_expectComparable hhigh⟩
  | quantified _ _ h =>
    obtain ⟨-, _, hop, hclass, hquery, -⟩ := quantify_eq_ok h
    exact ⟨fun hordering =>
      expectOperand_eq_ok hclass (by simp [BinaryOp.operandClasses?, hordering]),
      expectSubquery_eq_ok hquery⟩

theorem Expr.IsHeld.wellTyped (h : e.IsHeld tables) : e.WellTyped := by
  obtain h | ⟨_, _, _, -, rfl⟩ := h
  · exact h.formed.wellTyped
  · trivial

theorem Expr.IsClassless.class?_eq_none (h : e.IsClassless) : e.class? = none := by
  induction h with
  | null => rfl
  | min _ ih | max _ ih => exact ih
  | orElse _ _ ihe ihfallback => rw [Expr.class?, ihe, ihfallback, Option.none_or]

/-- An expression without a class is NULL, or returns one of its arguments, which have none. -/
theorem Expr.Everywhere.isClassless {M : Select → Prop} {e : Expr} :
    e.Everywhere WellTyped M → e.class? = none → e.IsClassless
  | .intro here children _, hclass => by
    cases e with
    | literal v type? =>
      cases type? with
      | none =>
        cases v with
        | null => exact .null
        | _ => cases hclass
      | some type => cases hclass
    | apply f e =>
      have he := Expr.Everywhere.isClassless (children e (by simp [Expr.children]))
      cases f with
      | min => exact .min (he hclass)
      | max => exact .max (he hclass)
      | _ => cases hclass
    | orElse e fallback =>
      have he := Expr.Everywhere.isClassless (children e (by simp [Expr.children]))
      have hfallback :=
        Expr.Everywhere.isClassless (children fallback (by simp [Expr.children]))
      rw [Expr.class?, Option.or_eq_none_iff] at hclass
      exact .orElse (he hclass.1) (hfallback hclass.2)
    | extremum f first second rest =>
      -- The first argument has an order, so it has a class.
      obtain ⟨⟨found, -, hfound⟩, -⟩ := here
      simp [Expr.class?, hfound] at hclass
    | binary l op r => cases op <;> cases hclass
    | _ => cases hclass

end Nodes

/-! ### Expressions and selects -/

/-- A node follows its rule, and has a class unless it is NULL. -/
def Expr.IsClassed (e : Expr) : Prop :=
  e.WellTyped ∧ (e.class? = none ↔ e.IsClassless)

section Expressions

variable {tables : Set Table} {e f : Expr} {s s' : Select}

/-- An expression has a class unless it is NULL, since all nodes in it follow their rules. -/
theorem Expr.IsHeld.isClassed (h : e.IsHeld tables) : e.IsClassed := by
  have hrules := h.everywhere.imp (fun _ => IsHeld.wellTyped) fun _ => id
  exact ⟨h.wellTyped, hrules.isClassless, IsClassless.class?_eq_none⟩

/-- A condition stays one when another condition is attached to it. -/
theorem Expr.class?_attach {condition? : Option Expr} (h : attach condition? e = .ok f)
    (he : e.class? = some .boolean) : f.class? = some .boolean := by
  obtain rfl | ⟨condition, -, h⟩ := attach_eq_ok h
  · exact he
  · obtain ⟨-, rfl⟩ := chain_eq_ok h
    rfl

theorem Select.wellTyped_ofTable (t : Table) : (Select.ofTable t).WellTyped :=
  ⟨List.forall_mem_nil _, nofun, nofun⟩

/-- A step attaches only conditions of class boolean. -/
theorem Select.WellTyped.step {st : Select.Step} (hs : s.WellTyped) (h : s.step st = .ok s') :
    s'.WellTyped := by
  cases st with
  | project es =>
    obtain ⟨-, rfl⟩ := project_eq_ok h
    exact ⟨hs.joins, hs.filter, hs.having⟩
  | projectAs e name =>
    obtain ⟨-, rfl⟩ := projectAs_eq_ok h
    exact ⟨hs.joins, hs.filter, hs.having⟩
  | join kind t condition =>
    obtain ⟨-, hclass, -, rfl⟩ := join_eq_ok h
    refine ⟨List.forall_mem_append.2 ⟨hs.joins, List.forall_mem_singleton.2 ?_⟩, hs.filter,
      hs.having⟩
    rintro _ ⟨⟩
    exact hclass
  | crossJoin t =>
    obtain ⟨-, rfl⟩ := crossJoin_eq_ok h
    exact ⟨List.forall_mem_append.2 ⟨hs.joins, List.forall_mem_singleton.2 nofun⟩, hs.filter,
      hs.having⟩
  | filterBy e =>
    obtain ⟨hclass, -, filter, hattach, rfl⟩ := filterBy_eq_ok h
    refine ⟨hs.joins, ?_, hs.having⟩
    rintro _ ⟨⟩
    exact Expr.class?_attach hattach hclass
  | group columns =>
    obtain ⟨-, rfl⟩ := group_eq_ok h
    exact ⟨hs.joins, hs.filter, hs.having⟩
  | havingBy e =>
    obtain ⟨hclass, -, having, hattach, rfl⟩ := havingBy_eq_ok h
    refine ⟨hs.joins, hs.filter, ?_⟩
    rintro _ ⟨⟩
    exact Expr.class?_attach hattach hclass
  | sort k =>
    obtain ⟨-, rfl⟩ := sort_eq_ok h
    exact ⟨hs.joins, hs.filter, hs.having⟩
  -- The other steps touch no condition.
  | _ =>
    cases h
    exact ⟨hs.joins, hs.filter, hs.having⟩

theorem Select.Built.wellTyped (h : s.Built tables) : s.WellTyped :=
  h.of_steps (fun t _ => wellTyped_ofTable t) fun hs _ _ _ h => hs.step h

end Expressions

/-! ### Statements -/

/-- An expression has no class, or the class of a column that is the same as the one that it is
given to. -/
def Column.Takes (tables : Set Table) (c : Column) (e : Expr) : Prop :=
  ∃ d : Column, d.IsOf tables ∧ d.sameAs c = true ∧
    ∀ found, e.class? = some found → found = d.type.valueClass

/-- The columns of an insert take its values. -/
def Insert.WellTyped (tables : Set Table) (i : Insert) : Prop :=
  ∀ row ∈ i.rows, List.Forall₂ (Column.Takes tables) i.columns row

/-- The columns of an update take its values, and its condition is of class boolean. -/
structure Update.WellTyped (tables : Set Table) (u : Update) : Prop where
  assignments : ∀ a ∈ u.assignments, a.1.Takes tables a.2
  filter : ∀ e, u.filter? = some e → e.class? = some .boolean

/-- The condition of a delete is of class boolean. -/
def Delete.WellTyped (x : Delete) : Prop :=
  ∀ e, x.condition? = some e → e.class? = some .boolean

/-- The rule of a statement outside of its expressions and selects. -/
def Statement.WellTyped (tables : Set Table) : Statement → Prop
  | .select _ | .compound _ => True
  | .insert i _ => i.WellTyped tables
  | .update u _ => u.WellTyped tables
  | .delete x _ => x.WellTyped

section Statements

variable {tables : Set Table} {c : Column} {e : Expr}

/-- Where tables with one reference have the same columns, a column takes what has its own class. -/
theorem Column.takes_iff (h : Consistent tables) (hc : c.IsOf tables) :
    c.Takes tables e ↔ ∀ found, e.class? = some found → found = c.type.valueClass := by
  refine ⟨?_, fun hclass => ⟨c, hc, by simp, hclass⟩⟩
  rintro ⟨d, ⟨t, ht, hd⟩, hsame, hclass⟩
  obtain ⟨hname, htable⟩ := (sameAs_iff d c).1 hsame
  have hct := h.mem_columns hc ht ((Table.table_of_mem_columns hd).symm.trans htable)
  obtain rfl := Table.eq_of_mem_columns hd hct hname
  exact hclass

/-- A column takes what it accepts. -/
theorem Column.takes_of_accept {clause : AssignmentClause} {sources : List TableRef}
    {operand : Operand} (hc : c.IsOf tables) (h : c.accept clause sources operand = .ok e) :
    c.Takes tables e :=
  ⟨c, hc, by simp, (accept_eq_ok h).2.2.2⟩

/-- A column takes what a column takes that is the same. -/
theorem Column.Takes.of_sameAs {d : Column} (h : c.Takes tables e) (hsame : c.sameAs d = true) :
    d.Takes tables e := by
  obtain ⟨b, hb, hbc, hclass⟩ := h
  rw [sameAs_iff] at hbc hsame
  exact ⟨b, hb, (sameAs_iff b d).2 ⟨hbc.1.trans hsame.1, hbc.2.trans hsame.2⟩, hclass⟩

/-- An insert without columns has no rows, and its columns take the values of its rows. -/
theorem Insert.Built.wellTyped {i : Insert} (h : i.Built tables) :
    (i.columns = [] → i.rows = []) ∧ i.WellTyped tables := by
  induction h with
  | ofTable ht => exact ⟨fun _ => rfl, List.forall_mem_nil _⟩
  | @addRow i i' r hi hcolumns hoperands h ih =>
    obtain ⟨values, hvalues, haligned⟩ := addRow_eq_ok h
    have hencoded := Row.encode_eq_ok hvalues
    have htakes : ∀ p ∈ values, p.1.Takes tables p.2 := fun p hp => by
      obtain ⟨-, operand, hmem, haccept⟩ := hencoded p hp
      exact Column.takes_of_accept (hcolumns _ hmem) haccept
    obtain ⟨hempty, rfl⟩ | ⟨hne, row, hrow, rfl⟩ := haligned
    -- The first row brings its own columns.
    · refine ⟨fun h => absurd (List.map_eq_nil_iff.1 h) (Row.encode_ne_nil hvalues), ?_⟩
      rw [WellTyped, ih.1 hempty]
      refine List.forall_mem_singleton.2 ?_
      rw [List.forall₂_map_left_iff, List.forall₂_map_right_iff, List.forall₂_same]
      exact htakes
    · refine ⟨fun h => absurd h hne, List.forall_mem_append.2
        ⟨ih.2, List.forall_mem_singleton.2 ((align_eq_some hrow).imp ?_)⟩⟩
      rintro c _ ⟨p, hp, hsame, rfl⟩
      exact (htakes p hp).of_sameAs hsame
  | returningColumns hi hcolumns h ih =>
    obtain ⟨-, rfl⟩ := returningColumns_eq_ok h
    exact ih

theorem Update.Built.wellTyped {u : Update} (h : u.Built tables) : u.WellTyped tables := by
  induction h with
  | ofTable ht => exact ⟨List.forall_mem_nil _, nofun⟩
  | set hu hc hoperand h ih =>
    obtain ⟨-, e, haccept, rfl⟩ := set_eq_ok h
    have htakes := Column.takes_of_accept hc haccept
    refine ⟨fun a ha => ?_, ih.filter⟩
    -- A value may be put in the place of another, under the column that stands there.
    obtain ha | ⟨hvalue, hcolumn | ⟨hsame, -⟩⟩ := mem_put ha
    · exact ih.assignments a ha
    · rwa [hvalue, hcolumn]
    · rw [hvalue]
      exact htakes.of_sameAs (by simp_all)
  | filterBy hu he h ih =>
    obtain ⟨hclass, -, filter, hattach, rfl⟩ := filterBy_eq_ok h
    refine ⟨ih.assignments, ?_⟩
    rintro _ ⟨⟩
    exact Expr.class?_attach hattach hclass
  | returningColumns hu hcolumns h ih =>
    obtain ⟨-, rfl⟩ := returningColumns_eq_ok h
    exact ⟨ih.assignments, ih.filter⟩

theorem Delete.Built.wellTyped {x : Delete} (h : x.Built tables) : x.WellTyped := by
  induction h with
  | ofTable ht => exact nofun
  | filterBy hx he h ih =>
    obtain ⟨hclass, -, condition, hattach, rfl⟩ := filterBy_eq_ok (step?_filterBy_eq_ok h)
    rintro _ ⟨⟩
    exact Expr.class?_attach hattach hclass
  | allRows hx h ih =>
    obtain rfl := step?_allRows_eq_ok h
    exact nofun
  | returningColumns hx hcolumns h ih =>
    obtain ⟨-, rfl⟩ := step?_returningColumns_eq_ok h
    exact ih

theorem Statement.Built.wellTyped {s : Statement} (h : s.Built tables) : s.WellTyped tables := by
  cases h with
  | select hs => trivial
  | compound hc => trivial
  | insert complete hi => exact hi.wellTyped.2
  | update complete hu => exact hu.wellTyped
  | delete complete hx => exact hx.wellTyped

/-- **Everything that is built is well typed.** Every node of an expression follows its rule, and has
a class unless it is made of NULL only; every condition of a select, an update or a delete is of
class boolean; the columns of inserts and updates take the values that they are given, which are of
their own classes where tables with one reference have the same columns. -/
theorem isTyped_of_built (tables : Set Table) :
    (∀ e : Expr, e.Built tables → e.Everywhere Expr.IsClassed Select.WellTyped) ∧
      (∀ s : Statement, s.Built tables →
        s.WellTyped tables ∧ s.Everywhere Expr.IsClassed Select.WellTyped) ∧
      (Consistent tables → ∀ (c : Column) (e : Expr), c.IsOf tables →
        (c.Takes tables e ↔ ∀ found, e.class? = some found → found = c.type.valueClass)) := by
  refine ⟨fun e he => ?_, fun s hs => ⟨hs.wellTyped, ?_⟩, fun h c e hc => Column.takes_iff h hc⟩
  · exact he.everywhere.imp (fun _ => Expr.IsHeld.isClassed) fun _ => Select.Built.wellTyped
  · exact hs.everywhere.imp (fun _ => Expr.IsHeld.isClassed) fun _ => Select.Built.wellTyped

end Statements

theorem isTyped_of_built_dearGoods :
    offeredForLess.Built {goods, offers} ∧ (Statement.select dearGoods).Built {goods, offers} ∧
      Consistent {goods, offers} ∧ price.IsOf {goods, offers} ∧ offeredForLess.WellTyped ∧
      dearGoods.WellTyped ∧ price.Takes {goods, offers} (.literal (.int 5) (some .integer)) ∧
      ¬ price.Takes {goods, offers} (.literal (.text "five") none) := by
  have hprice : price.IsOf {goods, offers} := ⟨goods, .inl rfl, .head _⟩
  obtain ⟨hexpr, hstatement, htakes⟩ := isTyped_of_built {goods, offers}
  have htakes := fun e => htakes consistent_goods_offers price e hprice
  refine ⟨built_offeredForLess, built_dearGoods, consistent_goods_offers, hprice,
    (hexpr _ built_offeredForLess).here.1, (hstatement _ built_dearGoods).2.here,
    (htakes _).2 ?_, fun h => ?_⟩
  · rintro _ ⟨⟩
    rfl
  · exact absurd ((htakes _).1 h .text rfl) (by decide)

/-! ### Goods that are declared twice -/

/-- Another declaration of the table of goods, with prices in words. -/
def wordyGoods : Table where
  ref := goods.ref
  decls := [⟨"price", .text, true, none⟩]
  decls_ne_nil := by decide
  nodup_names := by decide
  hasSoundDefault := by
    rintro d (_ | ⟨_, ⟨⟩⟩) v ⟨⟩

/-- The price of goods in words. -/
def wordyPrice : Column :=
  ⟨wordyGoods.ref, ⟨"price", .text, true, none⟩⟩

/-- Goods that are given a price as a number and then in words. -/
def repriced : Update :=
  { Update.ofTable goods with assignments := [(price, .literal (.text "five") (some .text))] }

/-- **A value may be of another class than its column**, when two tables with one reference declare
that column with types of different classes. -/
theorem otherClass_repriced :
    ∃ complete : repriced.IsComplete,
      (Statement.update repriced complete).Built {goods, wordyGoods} ∧
      ∃ a ∈ repriced.assignments, ∃ found, a.2.class? = some found ∧ found ≠ a.1.type.valueClass := by
  have hgoods : goods ∈ ({goods, wordyGoods} : Set Table) := .inl rfl
  have hwordy : wordyGoods ∈ ({goods, wordyGoods} : Set Table) := .inr rfl
  have hnumber : (Update.ofTable goods).step (.set price (.value (.int 5))) =
      .ok { Update.ofTable goods with
        assignments := [(price, .literal (.int 5) (some .integer))] } := rfl
  have hwords : Update.step
      { Update.ofTable goods with assignments := [(price, .literal (.int 5) (some .integer))] }
      (.set wordyPrice (.value (.text "five"))) = .ok repriced := rfl
  have hvalue : ∀ (v : Value) (x : Expr),
      (Operand.value v).expr? = some x → x.Built {goods, wordyGoods} := by
    rintro v x ⟨⟩
  have hbuilt : repriced.Built {goods, wordyGoods} :=
    .set (.set (.ofTable hgoods) ⟨goods, hgoods, .head _⟩ (hvalue _) hnumber)
      ⟨wordyGoods, hwordy, .head _⟩ (hvalue _) hwords
  exact ⟨by decide, .update _ hbuilt, _, .head _, .text, rfl, by decide⟩

end TypedSql
