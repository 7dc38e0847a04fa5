import Mathlib.Data.List.Basic
import TypedSql.Expr.Induction
import TypedSql.Proofs.Scope
import TypedSql.Statement.Basic

/-!
# What the builders build

`Expr.Built` and `Select.Built` are the expressions and selects that the public functions build from
the columns of some tables; the two are defined together, since a condition may hold a select and
the clauses of a select hold expressions. The statements on one table follow.

The `*_eq_ok` lemmas say, for each function and each step, all that was checked when it succeeded and
what came out.
-/

namespace TypedSql

theorem bind_eq_ok {ε α β : Type} {x : Except ε α} {f : α → Except ε β} {b : β} :
    x >>= f = .ok b ↔ ∃ a, x = .ok a ∧ f a = .ok b := by
  cases x <;> simp [bind, Except.bind]

theorem bind_eq_error {ε α β : Type} {x : Except ε α} {f : α → Except ε β} {fault : ε} :
    x >>= f = .error fault ↔ x = .error fault ∨ ∃ a, x = .ok a ∧ f a = .error fault := by
  cases x <;> simp [bind, Except.bind]

theorem pure_eq_ok {ε α : Type} {a b : α} : (pure a : Except ε α) = .ok b ↔ a = b := by
  simp [pure, Except.pure]

/-! ### Results of the functions that build expressions -/

namespace Expr

section Results

variable {e f left right subject : Expr} {operand : Operand}

theorem neg_eq_ok (h : e.neg = .ok f) :
    (∃ found ∈ ValueClass.arithmetic, e.class? = some found) ∧ f = .negation e := by
  obtain ⟨_, hclass, h⟩ := bind_eq_ok.1 h
  exact ⟨expectClass_eq_ok_iff.1 hclass, (pure_eq_ok.1 h).symm⟩

theorem not_eq_ok (h : e.not = .ok f) :
    (∃ found ∈ ValueClass.predicate, e.class? = some found) ∧ f = .complement e := by
  obtain ⟨_, hclass, h⟩ := bind_eq_ok.1 h
  exact ⟨expectClass_eq_ok_iff.1 hclass, (pure_eq_ok.1 h).symm⟩

theorem resolveValue_eq_ok {v : Value} (h : e.resolveValue v = .ok f) :
    (e.type? = none ∧ f = .literal v none) ∨
      ∃ type w, e.type? = some type ∧ type.encode v = .ok w ∧ f = .literal w (some type) := by
  unfold resolveValue at h
  split at h
  · rename_i htype
    exact .inl ⟨htype, (Except.ok.inj h).symm⟩
  · rename_i type htype
    split at h
    · rename_i w hw
      exact .inr ⟨type, w, htype, hw, (Except.ok.inj h).symm⟩
    · cases h

/-- An operand that comes out changed is a raw value. -/
theorem resolve_eq_ok (h : e.resolve operand = .ok f) :
    operand = .expr f ∨
      ∃ v, (operand = .value v ∨ operand = .expr (.literal v none)) ∧ e.resolveValue v = .ok f := by
  unfold resolve at h
  split at h
  · exact .inr ⟨_, .inl rfl, h⟩
  · exact .inr ⟨_, .inr rfl, h⟩
  · exact .inl (congrArg _ (Except.ok.inj h))

/-- A binary operator takes no NULL; equality with NULL is a test for it. -/
theorem operate_eq_ok {op : BinaryOp} (h : left.operate op operand = .ok f) :
    left.isNullLiteral = false ∧
      ((operand.isNull = true ∧
          (op = .compare .eq ∧ f = left.isNull ∨ op = .compare .notEq ∧ f = left.isNotNull)) ∨
        operand.isNull = false ∧ ∃ right, left.expectOperand op = .ok () ∧
          left.resolve operand = .ok right ∧ right.expectOperand op = .ok () ∧
          left.expectComparable right (.binary op) = .ok () ∧ f = .binary left op right) := by
  unfold operate at h
  split at h
  · cases h
  · rename_i hleft
    refine ⟨by simpa using hleft, ?_⟩
    split at h
    · rename_i hnull
      refine .inl ⟨hnull, ?_⟩
      split at h
      · exact .inl ⟨rfl, (Except.ok.inj h).symm⟩
      · exact .inr ⟨rfl, (Except.ok.inj h).symm⟩
      · cases h
    · rename_i hnull
      obtain ⟨_, hclass, h⟩ := bind_eq_ok.1 h
      obtain ⟨right, hright, h⟩ := bind_eq_ok.1 h
      obtain ⟨_, hclass', h⟩ := bind_eq_ok.1 h
      obtain ⟨_, hcomparable, h⟩ := bind_eq_ok.1 h
      exact .inr ⟨by simpa using hnull, right, hclass, hright, hclass', hcomparable,
        (pure_eq_ok.1 h).symm⟩

theorem between_eq_ok {low high : Operand} {negated : Bool}
    (h : subject.between low high negated = .ok f) :
    (subject.isNullLiteral = false ∧ low.isNull = false ∧ high.isNull = false) ∧
      (∃ found ∈ ValueClass.orderable, subject.class? = some found) ∧
      ∃ l r, subject.resolve low = .ok l ∧ subject.resolve high = .ok r ∧
        subject.expectComparable l (.range negated) = .ok () ∧
        subject.expectComparable r (.range negated) = .ok () ∧ f = .range subject l r negated := by
  simp only [between] at h
  split at h
  · cases h
  · rename_i hnull
    obtain ⟨_, hclass, h⟩ := bind_eq_ok.1 h
    obtain ⟨l, hl, h⟩ := bind_eq_ok.1 h
    obtain ⟨r, hr, h⟩ := bind_eq_ok.1 h
    obtain ⟨_, hlow, h⟩ := bind_eq_ok.1 h
    obtain ⟨_, hhigh, h⟩ := bind_eq_ok.1 h
    exact ⟨by simpa [and_assoc] using hnull, expectClass_eq_ok_iff.1 hclass, l, r, hl, hr, hlow,
      hhigh, (pure_eq_ok.1 h).symm⟩

/-- An operand beside an expression that takes no NULL is resolved to one of no other class. -/
theorem counterpart_eq_ok {construct : Construct}
    (h : subject.counterpart construct operand = .ok f) :
    operand.isNull = false ∧ subject.resolve operand = .ok f ∧
      subject.expectComparable f construct = .ok () := by
  unfold counterpart at h
  split at h
  · cases h
  · rename_i hnull
    obtain ⟨e, he, h⟩ := bind_eq_ok.1 h
    obtain ⟨_, hcomparable, h⟩ := bind_eq_ok.1 h
    obtain rfl := pure_eq_ok.1 h
    exact ⟨by simpa using hnull, he, hcomparable⟩

theorem counterparts_eq_ok {construct : Construct} {operands : List Operand} {es : List Expr}
    (h : subject.counterparts construct operands = .ok es) :
    ∀ e ∈ es, ∃ operand ∈ operands, subject.counterpart construct operand = .ok e := by
  induction operands generalizing es with
  | nil =>
    cases h
    exact List.forall_mem_nil _
  | cons operand operands ih =>
    obtain ⟨e, he, h⟩ := bind_eq_ok.1 h
    obtain ⟨rest, hrest, h⟩ := bind_eq_ok.1 h
    obtain rfl := pure_eq_ok.1 h
    refine List.forall_mem_cons.2 ⟨⟨operand, by simp, he⟩, fun x hx => ?_⟩
    obtain ⟨o, ho, hx⟩ := ih hrest x hx
    exact ⟨o, List.mem_cons_of_mem _ ho, hx⟩

theorem inList_eq_ok {operands : List Operand} {negated : Bool}
    (h : subject.inList operands negated = .ok f) :
    subject.isNullLiteral = false ∧ ∃ items,
      (∀ e ∈ items, ∃ operand ∈ operands,
        subject.counterpart (.membership negated) operand = .ok e) ∧
      f = .listMembership subject items negated := by
  simp only [inList] at h
  split at h
  · cases h
  · rename_i hnull
    obtain ⟨items, hitems, h⟩ := bind_eq_ok.1 h
    exact ⟨by simpa using hnull, items, counterparts_eq_ok hitems, (pure_eq_ok.1 h).symm⟩

/-- A subquery beside an expression has one result column, of no other class. -/
theorem expectSubquery_eq_ok {query : Select} {construct : Construct}
    (h : subject.expectSubquery query construct = .ok ()) :
    ∃ found?, query.outputClasses = [found?] ∧
      ∀ expected found, subject.class? = some expected → found? = some found →
        expected = found := by
  unfold expectSubquery at h
  split at h
  · rename_i found? hclasses
    exact ⟨found?, hclasses, expectSameClass_eq_ok_iff.1 h⟩
  · cases h

theorem inSelect_eq_ok {query : Select} {negated : Bool}
    (h : subject.inSelect query negated = .ok f) :
    subject.expectSubquery query (.membership negated) = .ok () ∧
      f = .rowMembership subject query negated := by
  obtain ⟨_, hquery, h⟩ := bind_eq_ok.1 h
  exact ⟨hquery, (pure_eq_ok.1 h).symm⟩

theorem quantify_eq_ok {op : BinaryOp} {quantifier : Quantifier} {query : Select}
    (h : subject.quantify op quantifier query = .ok f) :
    subject.isNullLiteral = false ∧ ∃ comparison, op = .compare comparison ∧
      subject.expectOperand op = .ok () ∧ subject.expectSubquery query (.binary op) = .ok () ∧
      f = .quantified subject comparison quantifier query := by
  unfold quantify at h
  split at h
  · split at h
    · cases h
    · rename_i hnull
      obtain ⟨_, hclass, h⟩ := bind_eq_ok.1 h
      obtain ⟨_, hquery, h⟩ := bind_eq_ok.1 h
      exact ⟨by simpa using hnull, _, rfl, hclass, hquery, (pure_eq_ok.1 h).symm⟩
  · cases h

theorem chainParts_eq_ok {kind : Connective} {es parts : List Expr}
    (h : chainParts kind es = .ok parts) :
    (∀ e ∈ es, e.class? = some .boolean) ∧ parts = es.flatMap (partsFor kind) := by
  induction es generalizing parts with
  | nil =>
    cases h
    exact ⟨List.forall_mem_nil _, rfl⟩
  | cons e es ih =>
    obtain ⟨_, hclass, h⟩ := bind_eq_ok.1 h
    obtain ⟨rest, hrest, h⟩ := bind_eq_ok.1 h
    obtain ⟨found, hfound, hclass⟩ := expectClass_eq_ok_iff.1 hclass
    obtain rfl := List.mem_singleton.1 hfound
    refine ⟨List.forall_mem_cons.2 ⟨hclass, (ih hrest).1⟩, ?_⟩
    rw [← pure_eq_ok.1 h, (ih hrest).2, List.flatMap_cons]

theorem chain_eq_ok {kind : Connective} {es : List Expr} (h : chain kind es = .ok f) :
    (∀ e ∈ es, e.class? = some .boolean) ∧ f = .junction kind (es.flatMap (partsFor kind)) := by
  obtain ⟨parts, hparts, h⟩ := bind_eq_ok.1 h
  obtain ⟨hclass, rfl⟩ := chainParts_eq_ok hparts
  exact ⟨hclass, (pure_eq_ok.1 h).symm⟩

/-- A condition is attached to the one that is there as a second part of a chain. -/
theorem attach_eq_ok {condition? : Option Expr} (h : attach condition? e = .ok f) :
    f = e ∨ ∃ condition ∈ condition?, chain .and [condition, e] = .ok f := by
  cases condition? with
  | none => exact .inl (Except.ok.inj h).symm
  | some condition => exact .inr ⟨condition, rfl, h⟩

theorem call_eq_ok {g : UnaryFunction} (h : call g e = .ok f) :
    (∀ allowed, g.argumentClasses? = some allowed → ∃ found ∈ allowed, e.class? = some found) ∧
      f = .apply g e := by
  unfold call at h
  split at h
  · rename_i allowed hallowed
    obtain ⟨_, hclass, h⟩ := bind_eq_ok.1 h
    refine ⟨fun _ h => ?_, (pure_eq_ok.1 h).symm⟩
    obtain rfl := Option.some.inj (hallowed.symm.trans h)
    exact expectClass_eq_ok_iff.1 hclass
  · rename_i hallowed
    exact ⟨fun _ h => by simp [hallowed] at h, (Except.ok.inj h).symm⟩

theorem coalesce_eq_ok (h : e.coalesce operand = .ok f) :
    ∃ fallback, e.resolve operand = .ok fallback ∧
      e.expectComparable fallback (.call .coalesce) = .ok () ∧ f = .orElse e fallback := by
  obtain ⟨fallback, hfallback, h⟩ := bind_eq_ok.1 h
  obtain ⟨_, hcomparable, h⟩ := bind_eq_ok.1 h
  exact ⟨fallback, hfallback, hcomparable, (pure_eq_ok.1 h).symm⟩

theorem pick_eq_ok {g : Extremum} {operands : List Operand} (h : pick g e operands = .ok f) :
    (∃ found ∈ ValueClass.orderable, e.class? = some found) ∧
      (f = e ∨ ∃ second rest, (∀ x ∈ second :: rest, ∃ operand ∈ operands,
        e.counterpart (.call g.function) operand = .ok x) ∧ f = .extremum g e second rest) := by
  obtain ⟨_, hclass, h⟩ := bind_eq_ok.1 h
  obtain ⟨others, hothers, h⟩ := bind_eq_ok.1 h
  refine ⟨expectClass_eq_ok_iff.1 hclass, ?_⟩
  cases others with
  | nil => exact .inl (pure_eq_ok.1 h).symm
  | cons second rest =>
    exact .inr ⟨second, rest, counterparts_eq_ok hothers, (pure_eq_ok.1 h).symm⟩

/-- Two or more arguments of a choice by order, the first of which has an order. -/
theorem pick_eq_extremum {g : Extremum} {operands : List Operand} {first second : Expr}
    {rest : List Expr} (h : pick g first operands = .ok (.extremum g first second rest)) :
    (∃ found ∈ ValueClass.orderable, first.class? = some found) ∧
      ∀ x ∈ second :: rest, ∃ operand ∈ operands,
        first.counterpart (.call g.function) operand = .ok x := by
  obtain ⟨horderable, h | ⟨_, _, hothers, h⟩⟩ := pick_eq_ok h
  -- An expression is not one of its own arguments.
  · exact absurd (congrArg sizeOf h) (by simp; omega)
  · cases h
    exact ⟨horderable, hothers⟩

theorem stringAgg_eq_ok {separator : String} (h : e.stringAgg separator = .ok f) :
    (∃ found ∈ ValueClass.textual, e.class? = some found) ∧ f = .joinedText e separator := by
  obtain ⟨_, hclass, h⟩ := bind_eq_ok.1 h
  exact ⟨expectClass_eq_ok_iff.1 hclass, (pure_eq_ok.1 h).symm⟩

end Results

end Expr

theorem Column.expectIn_eq_ok {sources : List TableRef} {c : Column}
    (h : c.expectIn sources = .ok ()) : c.table ∈ sources := by
  unfold Column.expectIn at h
  split at h
  · assumption
  · cases h

theorem Column.expectAllIn_eq_ok {sources : List TableRef} {cs : List Column}
    (h : Column.expectAllIn sources cs = .ok ()) : ∀ c ∈ cs, c.table ∈ sources := by
  induction cs with
  | nil => exact List.forall_mem_nil _
  | cons c cs ih =>
    unfold Column.expectAllIn at h
    split at h
    · cases h
    · rename_i hc
      exact List.forall_mem_cons.2 ⟨expectIn_eq_ok hc, ih h⟩

/-! ### Columns of built expressions -/

/-- An expression asks for its column, for what its parts ask for, and for what its subquery asks
for. -/
theorem Expr.columns_eq (e : Expr) :
    e.columns = e.column?.toList ++ e.children.flatMap Expr.columns ++
      e.query?.toList.flatMap Select.outerColumns := by
  cases e <;>
    simp [Expr.columns, Expr.column?, Expr.children, Expr.query?, columnsOfAll_eq]

/-- A chain asks for what its conditions ask for. -/
theorem Expr.columns_chain (kind : Connective) (es : List Expr) :
    (Expr.junction kind (es.flatMap (Expr.partsFor kind))).columns = es.flatMap Expr.columns := by
  have hparts : ∀ e : Expr, (e.partsFor kind).flatMap Expr.columns = e.columns := by
    intro e
    unfold Expr.partsFor
    split
    · split
      · rw [Expr.columns, columnsOfAll_eq]
      · exact List.flatMap_singleton ..
    · exact List.flatMap_singleton ..
  rw [Expr.columns, columnsOfAll_eq, List.flatMap_assoc]
  exact List.flatMap_congr fun e _ => hparts e

/-- Attaching a condition asks for nothing new. -/
theorem Expr.columns_attach {condition? : Option Expr} {e f : Expr}
    (h : Expr.attach condition? e = .ok f) :
    f.columns = condition?.toList.flatMap Expr.columns ++ e.columns := by
  cases condition? with
  | none =>
    obtain rfl := Except.ok.inj h
    rfl
  | some condition =>
    obtain ⟨-, rfl⟩ := Expr.chain_eq_ok h
    rw [Expr.columns_chain]
    simp

/-! ### Results of the steps that build a select -/

namespace Select

/-- A select may use the columns of an expression. -/
def Binds (s : Select) (e : Expr) : Prop :=
  ∀ c ∈ e.columns, c.table ∈ s.sources

section Results

variable {s s' : Select} {e : Expr} {t : Table}

theorem expectBound_eq_ok (h : s.expectBound e = .ok ()) : s.Binds e :=
  (Expr.expectBound_eq_ok_iff e s.sources).1 h

theorem expectAllBound_eq_ok {es : List Expr} (h : s.expectAllBound es = .ok ()) :
    ∀ e ∈ es, s.Binds e := by
  induction es with
  | nil => exact List.forall_mem_nil _
  | cons e es ih =>
    obtain ⟨_, he, h⟩ := bind_eq_ok.1 h
    exact List.forall_mem_cons.2 ⟨expectBound_eq_ok he, ih h⟩

theorem expectNew_eq_ok (h : s.expectNew t = .ok ()) : t.ref ∉ s.sources := by
  unfold expectNew at h
  split at h
  · cases h
  · assumption

theorem project_eq_ok {es : List Expr} (h : s.project es = .ok s') :
    (∀ e ∈ es, s.Binds e) ∧
      s' = { s with projections := s.projections ++ es.map fun e => ⟨e, none⟩ } := by
  obtain ⟨_, hbound, h⟩ := bind_eq_ok.1 h
  exact ⟨expectAllBound_eq_ok hbound, (pure_eq_ok.1 h).symm⟩

theorem projectAs_eq_ok {name : String} (h : s.projectAs e name = .ok s') :
    s.Binds e ∧ s' = { s with projections := s.projections ++ [⟨e, some name⟩] } := by
  obtain ⟨_, hbound, h⟩ := bind_eq_ok.1 h
  exact ⟨expectBound_eq_ok hbound, (pure_eq_ok.1 h).symm⟩

theorem join_eq_ok {kind : JoinKind} {condition : Expr} (h : s.join kind t condition = .ok s') :
    t.ref ∉ s.sources ∧ condition.class? = some .boolean ∧ s'.Binds condition ∧
      s' = { s with joins := s.joins ++ [.on kind t condition] } := by
  obtain ⟨_, hnew, h⟩ := bind_eq_ok.1 h
  obtain ⟨_, hclass, h⟩ := bind_eq_ok.1 h
  obtain ⟨_, hbound, h⟩ := bind_eq_ok.1 h
  obtain rfl := pure_eq_ok.1 h
  exact ⟨expectNew_eq_ok hnew, Expr.expectCondition_eq_ok_iff.1 hclass, expectBound_eq_ok hbound,
    rfl⟩

theorem crossJoin_eq_ok (h : s.crossJoin t = .ok s') :
    t.ref ∉ s.sources ∧ s' = { s with joins := s.joins ++ [.cross t] } := by
  obtain ⟨_, hnew, h⟩ := bind_eq_ok.1 h
  exact ⟨expectNew_eq_ok hnew, (pure_eq_ok.1 h).symm⟩

theorem filterBy_eq_ok (h : s.filterBy e = .ok s') :
    e.class? = some .boolean ∧ s.Binds e ∧ ∃ filter, Expr.attach s.filter? e = .ok filter ∧
      s' = { s with filter? := some filter } := by
  obtain ⟨_, hclass, h⟩ := bind_eq_ok.1 h
  obtain ⟨_, hbound, h⟩ := bind_eq_ok.1 h
  obtain ⟨filter, hfilter, h⟩ := bind_eq_ok.1 h
  exact ⟨Expr.expectCondition_eq_ok_iff.1 hclass, expectBound_eq_ok hbound, filter, hfilter,
    (pure_eq_ok.1 h).symm⟩

theorem group_eq_ok {columns : List Column} (h : s.group columns = .ok s') :
    (∀ c ∈ columns, c.table ∈ s.sources) ∧ s' = { s with groupBy := columns } := by
  obtain ⟨_, hin, h⟩ := bind_eq_ok.1 h
  exact ⟨Column.expectAllIn_eq_ok hin, (pure_eq_ok.1 h).symm⟩

theorem havingBy_eq_ok (h : s.havingBy e = .ok s') :
    e.class? = some .boolean ∧ s.Binds e ∧ ∃ having, Expr.attach s.having? e = .ok having ∧
      s' = { s with having? := some having } := by
  obtain ⟨_, hclass, h⟩ := bind_eq_ok.1 h
  obtain ⟨_, hbound, h⟩ := bind_eq_ok.1 h
  obtain ⟨having, hhaving, h⟩ := bind_eq_ok.1 h
  exact ⟨Expr.expectCondition_eq_ok_iff.1 hclass, expectBound_eq_ok hbound, having, hhaving,
    (pure_eq_ok.1 h).symm⟩

theorem sort_eq_ok {k : SortKey} (h : s.sort k = .ok s') :
    s.Binds k.expr ∧ s' = { s with orderBy := s.orderBy ++ [k] } := by
  obtain ⟨_, hbound, h⟩ := bind_eq_ok.1 h
  exact ⟨expectBound_eq_ok hbound, (pure_eq_ok.1 h).symm⟩

end Results

/-- The expressions that a step is given. -/
def Step.exprs : Step → List Expr
  | .project es => es
  | .projectAs e _ | .join _ _ e | .filterBy e | .havingBy e => [e]
  | .sort k => [k.expr]
  | .dropDuplicates | .correlate _ | .crossJoin _ | .group _ | .limit _ | .offset _ => []

/-- The tables that a step is given. -/
def Step.tables : Step → List Table
  | .correlate t | .join _ t _ | .crossJoin t => [t]
  | _ => []

/-- The columns that a step is given outside of expressions. -/
def Step.columns : Step → List Column
  | .group columns => columns
  | _ => []

end Select

/-! ### Results of the steps that build the other statements -/

section Results

theorem CompoundSelect.ofSelect_eq_ok {s : Select} {c : CompoundSelect}
    (h : CompoundSelect.ofSelect s = .ok c) : c = ⟨s, [], [], none, none⟩ := by
  unfold CompoundSelect.ofSelect at h
  split at h
  · cases h
  · exact (Except.ok.inj h).symm

theorem CompoundSelect.combine_eq_ok {c c' : CompoundSelect} {op : SetOperator} {member : Select}
    (h : c.combine op member = .ok c') : c' = { c with rest := c.rest ++ [(op, member)] } := by
  unfold CompoundSelect.combine at h
  repeat' split at h
  all_goals first | cases h; rfl | cases h

theorem CompoundSelect.sort_eq_ok {c c' : CompoundSelect} {k : SortKey}
    (h : c.sort k = .ok c') :
    (∃ column, k.expr = .column column ∧ column.table = c.first.source.ref ∧
        c.first.projects column = true) ∧
      c' = { c with orderBy := c.orderBy ++ [k] } := by
  obtain ⟨_, hbound, h⟩ := bind_eq_ok.1 h
  split at h
  · rename_i column hcolumn
    split at h
    · rename_i hprojects
      have hexpr := Expr.column?_eq_some_iff.1 hcolumn
      have htable :=
        (Expr.expectBound_eq_ok_iff _ _).1 hbound column (by simp [hexpr, Expr.columns])
      exact ⟨⟨column, hexpr, List.mem_singleton.1 htable, hprojects⟩, (pure_eq_ok.1 h).symm⟩
    · cases h
  · cases h

variable {c : Column} {operand : Operand} {e : Expr} {sources : List TableRef} {t : Table}

theorem Column.accept_eq_ok {clause : AssignmentClause}
    (h : c.accept clause sources operand = .ok e) :
    (operand.isNull = true → c.decl.nullable = true) ∧ (Expr.column c).resolve operand = .ok e ∧
      (∀ x ∈ e.columns, x.table ∈ sources) ∧
      ∀ found, e.class? = some found → found = c.type.valueClass := by
  unfold Column.accept at h
  split at h
  · cases h
  · rename_i hnull
    obtain ⟨x, hresolve, h⟩ := bind_eq_ok.1 h
    obtain ⟨_, hbound, h⟩ := bind_eq_ok.1 h
    obtain ⟨_, hclass, h⟩ := bind_eq_ok.1 h
    obtain rfl := pure_eq_ok.1 h
    exact ⟨by simpa using hnull, hresolve, (Expr.expectBound_eq_ok_iff x sources).1 hbound,
      Column.expectAssignable_eq_ok_iff.1 hclass⟩

/-- A row gives columns of the table expressions that they accept. -/
theorem Row.encodeFrom_eq_ok {seen : List Column} {values : List (Column × Operand)}
    {encoded : List (Column × Expr)} (h : Row.encodeFrom t seen values = .ok encoded) :
    ∀ p ∈ encoded, p.1.table = t.ref ∧
      ∃ operand, (p.1, operand) ∈ values ∧ p.1.accept .values [] operand = .ok p.2 := by
  induction values generalizing seen encoded with
  | nil =>
    cases h
    exact List.forall_mem_nil _
  | cons value values ih =>
    obtain ⟨c, operand⟩ := value
    obtain ⟨_, hin, h⟩ := bind_eq_ok.1 h
    split at h
    · cases h
    · obtain ⟨e, he, h⟩ := bind_eq_ok.1 h
      obtain ⟨rest, hrest, h⟩ := bind_eq_ok.1 h
      obtain rfl := pure_eq_ok.1 h
      refine List.forall_mem_cons.2 ⟨⟨?_, operand, by simp, he⟩, fun p hp => ?_⟩
      · simpa using Column.expectIn_eq_ok hin
      · obtain ⟨htable, o, ho, haccept⟩ := ih hrest p hp
        exact ⟨htable, o, List.mem_cons_of_mem _ ho, haccept⟩

theorem Row.encode_eq_ok {r : Row} {encoded : List (Column × Expr)} (h : r.encode t = .ok encoded) :
    ∀ p ∈ encoded, p.1.table = t.ref ∧
      ∃ operand, (p.1, operand) ∈ r.values ∧ p.1.accept .values [] operand = .ok p.2 := by
  unfold Row.encode at h
  split at h
  · cases h
  · exact encodeFrom_eq_ok h

/-- A row that is encoded gives some value. -/
theorem Row.encode_ne_nil {r : Row} {encoded : List (Column × Expr)}
    (h : r.encode t = .ok encoded) : encoded ≠ [] := by
  unfold Row.encode at h
  split at h
  · cases h
  · rename_i hne
    obtain ⟨values⟩ := r
    cases values with
    | nil => exact absurd rfl hne
    | cons value values =>
      obtain ⟨_, -, h⟩ := bind_eq_ok.1 h
      split at h
      · cases h
      · obtain ⟨_, -, h⟩ := bind_eq_ok.1 h
        obtain ⟨_, -, h⟩ := bind_eq_ok.1 h
        exact pure_eq_ok.1 h ▸ List.cons_ne_nil _ _

/-- An expression that a column accepts without sources uses no columns. -/
theorem Column.columns_of_accept {clause : AssignmentClause}
    (h : c.accept clause [] operand = .ok e) : e.columns = [] :=
  List.eq_nil_iff_forall_not_mem.2 fun x hx => by simpa using (accept_eq_ok h).2.2.1 x hx

/-- A row is aligned with columns that are the same as its own. -/
theorem Insert.align_eq_some {columns : List Column} {values : List (Column × Expr)}
    {row : List Expr} (h : Insert.align columns values = some row) :
    List.Forall₂ (fun c e => ∃ p ∈ values, p.1.sameAs c = true ∧ p.2 = e) columns row := by
  induction columns generalizing row with
  | nil =>
    obtain rfl : [] = row := by simpa [Insert.align] using h
    exact .nil
  | cons c columns ih =>
    simp only [Insert.align, List.mapM_cons, Option.bind_eq_bind, Option.bind_eq_some_iff,
      Option.map_eq_some_iff, Option.pure_def, Option.some.injEq] at h
    obtain ⟨_, ⟨p, hp, rfl⟩, rest, hrest, rfl⟩ := h
    have hsame := List.find?_some hp
    exact .cons ⟨p, List.mem_of_find?_eq_some hp, hsame, rfl⟩ (ih hrest)

theorem Insert.mem_of_align {columns : List Column} {values : List (Column × Expr)}
    {row : List Expr} (h : Insert.align columns values = some row) :
    ∀ e ∈ row, ∃ p ∈ values, p.2 = e := by
  have haligned := align_eq_some h
  clear h
  induction haligned with
  | nil => exact List.forall_mem_nil _
  | cons hvalue _ ih =>
    obtain ⟨p, hp, -, rfl⟩ := hvalue
    exact List.forall_mem_cons.2 ⟨⟨p, hp, rfl⟩, ih⟩

/-- A row adds expressions that it gives to the columns of the insert; the first row also says which
columns these are. -/
theorem Insert.addRow_eq_ok {i i' : Insert} {r : Row} (h : i.addRow r = .ok i') :
    ∃ values, Row.encode r i.table = .ok values ∧
      ((i.columns = [] ∧ i' = { i with
          columns := values.map Prod.fst, rows := i.rows ++ [values.map Prod.snd] }) ∨
        (i.columns ≠ [] ∧ ∃ row, Insert.align i.columns values = some row ∧
          i' = { i with rows := i.rows ++ [row] })) := by
  obtain ⟨values, hvalues, h⟩ := bind_eq_ok.1 h
  refine ⟨values, hvalues, ?_⟩
  split at h
  · rename_i hempty
    exact .inl ⟨by simpa using hempty, (pure_eq_ok.1 h).symm⟩
  · rename_i hempty
    simp only at h
    split at h
    · split at h
      · rename_i row hrow
        exact .inr ⟨by simpa using hempty, row, hrow, (pure_eq_ok.1 h).symm⟩
      · cases h
    · cases h

theorem Insert.returningColumns_eq_ok {i i' : Insert} {columns : List Column}
    (h : i.returningColumns columns = .ok i') :
    (∀ c ∈ columns, c.table = i.table.ref) ∧ i' = { i with returning := columns } := by
  obtain ⟨_, hin, h⟩ := bind_eq_ok.1 h
  exact ⟨fun c hc => by simpa using Column.expectAllIn_eq_ok hin c hc, (pure_eq_ok.1 h).symm⟩

/-- A column keeps its place among the assignments, or comes last. -/
theorem Update.mem_put {a : Column × Expr} {assignments : List (Column × Expr)}
    (h : a ∈ Update.put c e assignments) :
    a ∈ assignments ∨
      (a.2 = e ∧ (a.1 = c ∨ a.1.sameAs c = true ∧ ∃ f, (a.1, f) ∈ assignments)) := by
  induction assignments with
  | nil =>
    obtain rfl := List.mem_singleton.1 h
    exact .inr ⟨rfl, .inl rfl⟩
  | cons b assignments ih =>
    obtain ⟨d, f⟩ := b
    unfold Update.put at h
    split at h
    · rename_i hsame
      rcases List.mem_cons.1 h with rfl | h
      · exact .inr ⟨rfl, .inr ⟨hsame, f, by simp⟩⟩
      · exact .inl (List.mem_cons_of_mem _ h)
    · rcases List.mem_cons.1 h with rfl | h
      · exact .inl (by simp)
      · rcases ih h with h | ⟨he, hc | ⟨hsame, g, hg⟩⟩
        · exact .inl (List.mem_cons_of_mem _ h)
        · exact .inr ⟨he, .inl hc⟩
        · exact .inr ⟨he, .inr ⟨hsame, g, List.mem_cons_of_mem _ hg⟩⟩

theorem Update.set_eq_ok {u u' : Update} (h : u.set c operand = .ok u') :
    c.table = u.table.ref ∧ ∃ e, c.accept .set [u.table.ref] operand = .ok e ∧
      u' = { u with assignments := Update.put c e u.assignments } := by
  obtain ⟨_, hin, h⟩ := bind_eq_ok.1 h
  obtain ⟨e, he, h⟩ := bind_eq_ok.1 h
  exact ⟨by simpa using Column.expectIn_eq_ok hin, e, he, (pure_eq_ok.1 h).symm⟩

theorem Update.filterBy_eq_ok {u u' : Update} (h : u.filterBy e = .ok u') :
    e.class? = some .boolean ∧ (∀ x ∈ e.columns, x.table = u.table.ref) ∧
      ∃ filter, Expr.attach u.filter? e = .ok filter ∧ u' = { u with filter? := some filter } := by
  obtain ⟨_, hclass, h⟩ := bind_eq_ok.1 h
  obtain ⟨_, hbound, h⟩ := bind_eq_ok.1 h
  obtain ⟨filter, hfilter, h⟩ := bind_eq_ok.1 h
  exact ⟨Expr.expectCondition_eq_ok_iff.1 hclass,
    fun x hx => by simpa using (Expr.expectBound_eq_ok_iff e _).1 hbound x hx, filter, hfilter,
    (pure_eq_ok.1 h).symm⟩

theorem Update.returningColumns_eq_ok {u u' : Update} {columns : List Column}
    (h : u.returningColumns columns = .ok u') :
    (∀ x ∈ columns, x.table = u.table.ref) ∧ u' = { u with returning := columns } := by
  obtain ⟨_, hin, h⟩ := bind_eq_ok.1 h
  exact ⟨fun x hx => by simpa using Column.expectAllIn_eq_ok hin x hx, (pure_eq_ok.1 h).symm⟩

theorem Delete.filterBy_eq_ok {x x' : Delete} {condition? : Option Expr}
    (h : x.filterBy condition? e = .ok x') :
    e.class? = some .boolean ∧ (∀ c ∈ e.columns, c.table = x.table.ref) ∧ ∃ condition,
      Expr.attach condition? e = .ok condition ∧ x' = { x with extent := .matching condition } := by
  obtain ⟨_, hclass, h⟩ := bind_eq_ok.1 h
  obtain ⟨_, hbound, h⟩ := bind_eq_ok.1 h
  obtain ⟨condition, hcondition, h⟩ := bind_eq_ok.1 h
  exact ⟨Expr.expectCondition_eq_ok_iff.1 hclass,
    fun c hc => by simpa using (Expr.expectBound_eq_ok_iff e _).1 hbound c hc, condition,
    hcondition, (pure_eq_ok.1 h).symm⟩

/-- A delete attaches a condition to the one that it has. -/
theorem Delete.step?_filterBy_eq_ok {x x' : Delete}
    (h : x.step? (.filterBy e) = some (.ok x')) : x.filterBy x.condition? e = .ok x' := by
  obtain ⟨table, extent, returning⟩ := x
  cases extent with
  | undecided => exact Option.some.inj h
  | matching condition => exact Option.some.inj h
  | allRows => cases h

theorem Delete.step?_allRows_eq_ok {x x' : Delete} (h : x.step? .allRows = some (.ok x')) :
    x' = { x with extent := .allRows } := by
  obtain ⟨table, extent, returning⟩ := x
  cases extent <;> simp [Delete.step?] at h
  exact h.symm

theorem Delete.step?_returningColumns_eq_ok {x x' : Delete} {columns : List Column}
    (h : x.step? (.returningColumns columns) = some (.ok x')) :
    (∀ c ∈ columns, c.table = x.table.ref) ∧ x' = { x with returning := columns } := by
  have hstep : x.returningColumns columns = .ok x' := by
    obtain ⟨table, extent, returning⟩ := x
    cases extent with
    | undecided => cases h
    | matching condition => exact Option.some.inj h
    | allRows => exact Option.some.inj h
  obtain ⟨_, hin, h⟩ := bind_eq_ok.1 hstep
  exact ⟨fun c hc => by simpa using Column.expectAllIn_eq_ok hin c hc, (pure_eq_ok.1 h).symm⟩

end Results

/-! ### Everything that is built -/

/-- The expression that an operand is, if it is one. -/
def Operand.expr? : Operand → Option Expr
  | .expr e => some e
  | .value _ => none

mutual

/-- An expression that the public functions build from the columns of some tables. -/
inductive Expr.Built (tables : Set Table) : Expr → Prop
  | column {c : Column} (hc : c.IsOf tables) : Expr.Built tables (.column c)
  | ofValue (v : Value) : Expr.Built tables (.ofValue v)
  | isNull {e : Expr} (he : Expr.Built tables e) : Expr.Built tables e.isNull
  | isNotNull {e : Expr} (he : Expr.Built tables e) : Expr.Built tables e.isNotNull
  | neg {e f : Expr} (he : Expr.Built tables e) (h : e.neg = .ok f) : Expr.Built tables f
  | not {e f : Expr} (he : Expr.Built tables e) (h : e.not = .ok f) : Expr.Built tables f
  | operate {e f : Expr} {op : BinaryOp} {operand : Operand} (he : Expr.Built tables e)
      (hoperand : ∀ x, operand.expr? = some x → Expr.Built tables x)
      (h : e.operate op operand = .ok f) : Expr.Built tables f
  | between {e f : Expr} {low high : Operand} {negated : Bool} (he : Expr.Built tables e)
      (hlow : ∀ x, low.expr? = some x → Expr.Built tables x)
      (hhigh : ∀ x, high.expr? = some x → Expr.Built tables x)
      (h : e.between low high negated = .ok f) : Expr.Built tables f
  | inList {e f : Expr} {operands : List Operand} {negated : Bool} (he : Expr.Built tables e)
      (hoperands : ∀ operand ∈ operands, ∀ x, operand.expr? = some x → Expr.Built tables x)
      (h : e.inList operands negated = .ok f) : Expr.Built tables f
  | inSelect {e f : Expr} {query : Select} {negated : Bool} (he : Expr.Built tables e)
      (hquery : Select.Built tables query) (h : e.inSelect query negated = .ok f) :
      Expr.Built tables f
  | quantify {e f : Expr} {op : BinaryOp} {quantifier : Quantifier} {query : Select}
      (he : Expr.Built tables e) (hquery : Select.Built tables query)
      (h : e.quantify op quantifier query = .ok f) : Expr.Built tables f
  | existence {query : Select} (negated : Bool) (hquery : Select.Built tables query) :
      Expr.Built tables (.existence query negated)
  | chain {kind : Connective} {es : List Expr} {f : Expr} (hes : ∀ e ∈ es, Expr.Built tables e)
      (h : Expr.chain kind es = .ok f) : Expr.Built tables f
  | rowCount : Expr.Built tables .rowCount
  | valueCount (distinct : Bool) {e : Expr} (he : Expr.Built tables e) :
      Expr.Built tables (.valueCount distinct e)
  | call {g : UnaryFunction} {e f : Expr} (he : Expr.Built tables e) (h : Expr.call g e = .ok f) :
      Expr.Built tables f
  | coalesce {e f : Expr} {operand : Operand} (he : Expr.Built tables e)
      (hoperand : ∀ x, operand.expr? = some x → Expr.Built tables x)
      (h : e.coalesce operand = .ok f) : Expr.Built tables f
  | pick {g : Extremum} {e f : Expr} {operands : List Operand} (he : Expr.Built tables e)
      (hoperands : ∀ operand ∈ operands, ∀ x, operand.expr? = some x → Expr.Built tables x)
      (h : Expr.pick g e operands = .ok f) : Expr.Built tables f
  | stringAgg {e f : Expr} {separator : String} (he : Expr.Built tables e)
      (h : e.stringAgg separator = .ok f) : Expr.Built tables f

/-- A select that steps build from some tables and their columns. -/
inductive Select.Built (tables : Set Table) : Select → Prop
  | ofTable {t : Table} (ht : t ∈ tables) : Select.Built tables (.ofTable t)
  | step {s s' : Select} {st : Select.Step} (hs : Select.Built tables s)
      (hexprs : ∀ e ∈ st.exprs, Expr.Built tables e) (htables : ∀ t ∈ st.tables, t ∈ tables)
      (hcolumns : ∀ c ∈ st.columns, c.IsOf tables) (h : s.step st = .ok s') :
      Select.Built tables s'

end

/-- A built select stays one when a built condition is attached to it. -/
theorem Select.Built.filterBy {tables : Set Table} {s s' : Select} {e : Expr}
    (hs : s.Built tables) (he : e.Built tables) (h : s.step (.filterBy e) = .ok s') :
    s'.Built tables := by
  refine .step hs ?_ ?_ ?_ h
  · exact List.forall_mem_singleton.2 he
  · exact List.forall_mem_nil _
  · exact List.forall_mem_nil _

/-- A compound select that steps build from some tables and their columns. -/
inductive CompoundSelect.Built (tables : Set Table) : CompoundSelect → Prop
  | ofSelect {s : Select} {c : CompoundSelect} (hs : s.Built tables)
      (h : CompoundSelect.ofSelect s = .ok c) : Built tables c
  | combine {c c' : CompoundSelect} {op : SetOperator} {member : Select} (hc : Built tables c)
      (hmember : member.Built tables) (h : c.step (.combine op member) = .ok c') : Built tables c'
  | sort {c c' : CompoundSelect} {k : SortKey} (hc : Built tables c) (hk : k.expr.Built tables)
      (h : c.step (.sort k) = .ok c') : Built tables c'
  | limit {c : CompoundSelect} (n : Nat) (hc : Built tables c) : Built tables (c.limit n)
  | offset {c : CompoundSelect} (n : Nat) (hc : Built tables c) : Built tables (c.offset n)

/-- An insert that steps build from some tables and their columns. -/
inductive Insert.Built (tables : Set Table) : Insert → Prop
  | ofTable {t : Table} (ht : t ∈ tables) : Built tables (.ofTable t)
  | addRow {i i' : Insert} {r : Row} (hi : Built tables i)
      (hcolumns : ∀ p ∈ r.values, p.1.IsOf tables)
      (hoperands : ∀ p ∈ r.values, ∀ x, p.2.expr? = some x → x.Built tables)
      (h : i.step (.addRow r) = .ok i') : Built tables i'
  | returningColumns {i i' : Insert} {columns : List Column} (hi : Built tables i)
      (hcolumns : ∀ c ∈ columns, c.IsOf tables)
      (h : i.step (.returningColumns columns) = .ok i') : Built tables i'

/-- An update that steps build from some tables and their columns. -/
inductive Update.Built (tables : Set Table) : Update → Prop
  | ofTable {t : Table} (ht : t ∈ tables) : Built tables (.ofTable t)
  | set {u u' : Update} {c : Column} {operand : Operand} (hu : Built tables u)
      (hc : c.IsOf tables) (hoperand : ∀ x, operand.expr? = some x → x.Built tables)
      (h : u.step (.set c operand) = .ok u') : Built tables u'
  | filterBy {u u' : Update} {e : Expr} (hu : Built tables u) (he : e.Built tables)
      (h : u.step (.filterBy e) = .ok u') : Built tables u'
  | returningColumns {u u' : Update} {columns : List Column} (hu : Built tables u)
      (hcolumns : ∀ c ∈ columns, c.IsOf tables)
      (h : u.step (.returningColumns columns) = .ok u') : Built tables u'

/-- A delete that steps build from some tables and their columns. -/
inductive Delete.Built (tables : Set Table) : Delete → Prop
  | ofTable {t : Table} (ht : t ∈ tables) : Built tables (.ofTable t)
  | filterBy {x x' : Delete} {e : Expr} (hx : Built tables x) (he : e.Built tables)
      (h : x.step? (.filterBy e) = some (.ok x')) : Built tables x'
  | allRows {x x' : Delete} (hx : Built tables x) (h : x.step? .allRows = some (.ok x')) :
      Built tables x'
  | returningColumns {x x' : Delete} {columns : List Column} (hx : Built tables x)
      (hcolumns : ∀ c ∈ columns, c.IsOf tables)
      (h : x.step? (.returningColumns columns) = some (.ok x')) : Built tables x'

/-- A complete statement that is built from some tables and their columns. -/
inductive Statement.Built (tables : Set Table) : Statement → Prop
  | select {s : Select} (hs : s.Built tables) : Built tables (.select s)
  | compound {c : CompoundSelect} (hc : c.Built tables) : Built tables (.compound c)
  | insert {i : Insert} (complete : i.IsComplete) (hi : i.Built tables) :
      Built tables (.insert i complete)
  | update {u : Update} (complete : u.IsComplete) (hu : u.Built tables) :
      Built tables (.update u complete)
  | delete {x : Delete} (complete : x.IsComplete) (hx : x.Built tables) :
      Built tables (.delete x complete)

end TypedSql
