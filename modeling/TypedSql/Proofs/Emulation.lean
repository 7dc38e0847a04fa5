import TypedSql.Expr.Induction
import TypedSql.Proofs.Reading
import TypedSql.Proofs.Semantics

/-!
# Emulations

A dialect may lack a construct. `Expr.emulated` is the expression that is written for it instead,
in which that construct is expressed by others: `LIKE` of lower-cased operands, `IN` and `NOT IN`
of a subquery, a test for NULL as a sort key. `Expr.form` is the tree of an expression with every
construct as it is, also membership in an empty list and an empty chain, for which there is no text.

`Expr.isMeant` says that what is read of the emulating expression means what the expression does,
for every dialect and under every interpretation.
-/

namespace TypedSql

/-! ### What is written instead -/

/-- The pattern match, or what a dialect writes for it. -/
def PatternMatch.emulated (d : Dialect) (m : PatternMatch) (l r : Expr) : Expr :=
  if m.ignoresCase && !d.supportsIlike then
    .binary (.apply .lower l) (.pattern ⟨false, m.negated⟩) (.apply .lower r)
  else .binary l (.pattern m) r

/-- The binary operator, or what a dialect writes for it. -/
def BinaryOp.emulated (d : Dialect) (op : BinaryOp) (l r : Expr) : Expr :=
  match op with
  | .pattern m => m.emulated d l r
  | _ => .binary l op r

/-- The quantified comparison, or what a dialect writes for it. -/
def Quantifier.emulated (d : Dialect) (op : Comparison) (quantifier : Quantifier) (e : Expr)
    (query : Select) : Expr :=
  if d.supportsQuantified then .quantified e op quantifier query
  else
    match op, quantifier with
    | .eq, .any => .rowMembership e query false
    | .notEq, .all => .rowMembership e query true
    | _, _ => .quantified e op quantifier query

/-- The sort key, or the two that a dialect writes for it. -/
def SortKey.emulated (d : Dialect) (k : SortKey) : List SortKey :=
  match k.nulls? with
  | some nulls =>
    if d.supportsNullPlacement then [k]
    else [⟨.nullTest k.expr false, nulls.testDirection, none⟩, ⟨k.expr, k.direction, none⟩]
  | none => [k]

mutual

/-- The expression that is written for a dialect in place of an expression. -/
def Expr.emulated (d : Dialect) : Expr → Expr
  | .column c => .column c
  | .literal v type? => .literal v type?
  | .negation e => .negation (e.emulated d)
  | .complement e => .complement (e.emulated d)
  | .nullTest e negated => .nullTest (e.emulated d) negated
  | .binary l op r => op.emulated d (l.emulated d) (r.emulated d)
  | .junction kind parts => .junction kind (emulatedAll d parts)
  | .rowCount => .rowCount
  | .valueCount distinct e => .valueCount distinct (e.emulated d)
  | .apply f e => .apply f (e.emulated d)
  | .orElse e fallback => .orElse (e.emulated d) (fallback.emulated d)
  | .extremum f first second rest =>
    .extremum f (first.emulated d) (second.emulated d) (emulatedAll d rest)
  | .joinedText e separator => .joinedText (e.emulated d) separator
  | .listMembership e items negated =>
    .listMembership (e.emulated d) (emulatedAll d items) negated
  | .rowMembership e query negated => .rowMembership (e.emulated d) (query.emulated d) negated
  | .range e low high negated =>
    .range (e.emulated d) (low.emulated d) (high.emulated d) negated
  | .existence query negated => .existence (query.emulated d) negated
  | .quantified e op quantifier query =>
    quantifier.emulated d op (e.emulated d) (query.emulated d)

/-- The expressions that are written in place of some expressions. -/
def emulatedAll (d : Dialect) : List Expr → List Expr
  | [] => []
  | e :: es => e.emulated d :: emulatedAll d es

/-- What is written in place of a clause that may be missing. -/
def emulatedClause (d : Dialect) : Option Expr → Option Expr
  | none => none
  | some e => some (e.emulated d)

/-- The result columns that are written in place of result columns. -/
def emulatedProjections (d : Dialect) : List Projection → List Projection
  | [] => []
  | ⟨e, alias?⟩ :: ps => ⟨e.emulated d, alias?⟩ :: emulatedProjections d ps

/-- The joins that are written in place of joins. -/
def emulatedJoins (d : Dialect) : List Join → List Join
  | [] => []
  | .on kind t condition :: js => .on kind t (condition.emulated d) :: emulatedJoins d js
  | .cross t :: js => .cross t :: emulatedJoins d js

/-- The sort keys that are written in place of sort keys. -/
def emulatedKeys (d : Dialect) : List SortKey → List SortKey
  | [] => []
  | ⟨e, direction, nulls?⟩ :: ks =>
    SortKey.emulated d ⟨e.emulated d, direction, nulls?⟩ ++ emulatedKeys d ks

/-- The select that is written for a dialect in place of a select. -/
def Select.emulated (d : Dialect) : Select → Select
  | ⟨distinct, projections, source, correlated, joins, filter?, groupBy, having?, orderBy, limit?,
      offset?⟩ =>
    ⟨distinct, emulatedProjections d projections, source, correlated, emulatedJoins d joins,
      emulatedClause d filter?, groupBy, emulatedClause d having?, emulatedKeys d orderBy, limit?,
      offset?⟩

end

/-- The result column that is written in place of a result column. -/
def Projection.emulated (d : Dialect) (p : Projection) : Projection :=
  { p with expr := p.expr.emulated d }

/-- The join that is written in place of a join. -/
def Join.emulated (d : Dialect) : Join → Join
  | .on kind t condition => .on kind t (condition.emulated d)
  | .cross t => .cross t

/-- The sort keys that are written in place of a sort key, with its expression. -/
def SortKey.emulatedWithin (d : Dialect) (k : SortKey) : List SortKey :=
  SortKey.emulated d { k with expr := k.expr.emulated d }

section Shape

variable {d : Dialect}

theorem emulatedAll_eq (es : List Expr) : emulatedAll d es = es.map (Expr.emulated d) := by
  induction es with
  | nil => rfl
  | cons e es ih => simp [emulatedAll, ih]

theorem emulatedClause_eq (e? : Option Expr) : emulatedClause d e? = e?.map (Expr.emulated d) := by
  cases e? <;> rfl

theorem emulatedProjections_eq (ps : List Projection) :
    emulatedProjections d ps = ps.map (Projection.emulated d) := by
  induction ps with
  | nil => rfl
  | cons p ps ih =>
    obtain ⟨e, alias?⟩ := p
    simp [emulatedProjections, Projection.emulated, ih]

theorem emulatedJoins_eq (js : List Join) : emulatedJoins d js = js.map (Join.emulated d) := by
  induction js with
  | nil => rfl
  | cons j js ih => cases j <;> simp [emulatedJoins, Join.emulated, ih]

theorem emulatedKeys_eq (ks : List SortKey) :
    emulatedKeys d ks = ks.flatMap (SortKey.emulatedWithin d) := by
  induction ks with
  | nil => rfl
  | cons k ks ih =>
    obtain ⟨e, direction, nulls?⟩ := k
    simp [emulatedKeys, SortKey.emulatedWithin, ih]

/-- A select is written clause by clause. -/
theorem Select.emulated_eq (s : Select) :
    s.emulated d =
      { s with
        projections := s.projections.map (Projection.emulated d)
        joins := s.joins.map (Join.emulated d)
        filter? := s.filter?.map (Expr.emulated d)
        having? := s.having?.map (Expr.emulated d)
        orderBy := s.orderBy.flatMap (SortKey.emulatedWithin d) } := by
  cases s
  simp [emulated, emulatedProjections_eq, emulatedJoins_eq, emulatedClause_eq, emulatedKeys_eq]

@[simp] theorem Select.qualifies_emulated (s : Select) :
    (s.emulated d).qualifies = s.qualifies := by
  rw [Select.emulated_eq, Select.qualifies, Select.qualifies, List.isEmpty_map]

end Shape

/-! ### The form of an expression -/

mutual

/-- The tree of an expression, with every construct as it is. -/
def Expr.form (qualify : Bool) : Expr → SqlExpr
  | .column c => c.readingExpr qualify
  | .literal v _ => .value v
  | .negation e => .negation (e.form qualify)
  | .complement e => .complement (e.form qualify)
  | .nullTest e negated => .nullTest (e.form qualify) negated
  | .binary l op r => .binary (l.form qualify) op (r.form qualify)
  | .junction kind parts => .chained kind (formsOf qualify parts)
  | .rowCount => .rowCount
  | .valueCount distinct e => .call .count distinct [e.form qualify]
  | .apply f e => .call f.function false [e.form qualify]
  | .orElse e fallback => .call .coalesce false [e.form qualify, fallback.form qualify]
  | .extremum f first second rest =>
    .call f.function false (first.form qualify :: second.form qualify :: formsOf qualify rest)
  | .joinedText e separator => .call .stringAgg false [e.form qualify, .value (.text separator)]
  | .listMembership e items negated =>
    .listMembership (e.form qualify) (formsOf qualify items) negated
  | .rowMembership e query negated => .rowMembership (e.form qualify) query.form negated
  | .range e low high negated =>
    .range (e.form qualify) (low.form qualify) (high.form qualify) negated
  | .existence query negated => .existence query.form negated
  | .quantified e op quantifier query => .quantified (e.form qualify) op quantifier query.form

/-- The trees of expressions. -/
def formsOf (qualify : Bool) : List Expr → List SqlExpr
  | [] => []
  | e :: es => e.form qualify :: formsOf qualify es

/-- The tree of a clause that may be missing. -/
def formOfClause (qualify : Bool) : Option Expr → Option SqlExpr
  | none => none
  | some e => some (e.form qualify)

/-- The trees of result columns. -/
def formsOfProjections (qualify : Bool) : List Projection → List SqlItem
  | [] => []
  | ⟨e, alias?⟩ :: ps => ⟨e.form qualify, alias?⟩ :: formsOfProjections qualify ps

/-- The trees of joins. -/
def formsOfJoins (qualify : Bool) : List Join → List SqlJoin
  | [] => []
  | .on kind t condition :: js => .on kind t.ref (condition.form qualify) :: formsOfJoins qualify js
  | .cross t :: js => .cross t.ref :: formsOfJoins qualify js

/-- The trees of sort keys. -/
def formsOfKeys (qualify : Bool) : List SortKey → List SqlSortKey
  | [] => []
  | ⟨e, direction, nulls?⟩ :: ks => ⟨e.form qualify, direction, nulls?⟩ :: formsOfKeys qualify ks

/-- The tree of a select. -/
def Select.form : Select → SqlSelect
  | ⟨distinct, projections, source, correlated, joins, filter?, groupBy, having?, orderBy, limit?,
      offset?⟩ =>
    let qualify := !joins.isEmpty || !correlated.isEmpty
    ⟨distinct,
      if projections.isEmpty then source.columns.map fun c => ⟨c.readingExpr qualify, none⟩
      else formsOfProjections qualify projections,
      source.ref, formsOfJoins qualify joins, formOfClause qualify filter?,
      groupBy.map (Column.reading qualify), formOfClause qualify having?,
      formsOfKeys qualify orderBy, limit?, offset?⟩

end

/-- The tree of a result column. -/
def Projection.form (qualify : Bool) (p : Projection) : SqlItem :=
  ⟨p.expr.form qualify, p.alias?⟩

/-- The tree of a join. -/
def Join.form (qualify : Bool) : Join → SqlJoin
  | .on kind t condition => .on kind t.ref (condition.form qualify)
  | .cross t => .cross t.ref

/-- The tree of a sort key. -/
def SortKey.form (qualify : Bool) (k : SortKey) : SqlSortKey :=
  ⟨k.expr.form qualify, k.direction, k.nulls?⟩

section Shape

variable {qualify : Bool}

theorem formsOf_eq (es : List Expr) : formsOf qualify es = es.map (Expr.form qualify) := by
  induction es with
  | nil => rfl
  | cons e es ih => simp [formsOf, ih]

theorem formOfClause_eq (e? : Option Expr) :
    formOfClause qualify e? = e?.map (Expr.form qualify) := by
  cases e? <;> rfl

theorem formsOfProjections_eq (ps : List Projection) :
    formsOfProjections qualify ps = ps.map (Projection.form qualify) := by
  induction ps with
  | nil => rfl
  | cons p ps ih =>
    obtain ⟨e, alias?⟩ := p
    simp [formsOfProjections, Projection.form, ih]

theorem formsOfJoins_eq (js : List Join) :
    formsOfJoins qualify js = js.map (Join.form qualify) := by
  induction js with
  | nil => rfl
  | cons j js ih => cases j <;> simp [formsOfJoins, Join.form, ih]

theorem formsOfKeys_eq (ks : List SortKey) :
    formsOfKeys qualify ks = ks.map (SortKey.form qualify) := by
  induction ks with
  | nil => rfl
  | cons k ks ih =>
    obtain ⟨e, direction, nulls?⟩ := k
    simp [formsOfKeys, SortKey.form, ih]

/-- The result columns of a select in its tree. -/
def Select.formItems (s : Select) : List SqlItem :=
  if s.projections.isEmpty then
    s.source.columns.map fun c => ⟨c.readingExpr s.qualifies, none⟩
  else s.projections.map (Projection.form s.qualifies)

theorem Select.form_eq (s : Select) :
    s.form =
      ⟨s.distinct, s.formItems, s.source.ref, s.joins.map (Join.form s.qualifies),
        s.filter?.map (Expr.form s.qualifies), s.groupBy.map (Column.reading s.qualifies),
        s.having?.map (Expr.form s.qualifies), s.orderBy.map (SortKey.form s.qualifies),
        s.limit?, s.offset?⟩ := by
  cases s
  simp [form, formItems, qualifies, formsOfProjections_eq, formsOfJoins_eq, formOfClause_eq,
    formsOfKeys_eq]

end Shape

/-! ### What is written means the same -/

/-- What is read of what is written for a dialect in place of an expression. -/
def Expr.sent (d : Dialect) (qualify : Bool) (e : Expr) : SqlExpr :=
  (e.emulated d).reading qualify

/-- What is read of what is written for a dialect in place of a select. -/
def Select.sent (d : Dialect) (s : Select) : SqlSelect :=
  (s.emulated d).reading

section Meaning

variable {ρ : Type} (I : Interpretation ρ) (d : Dialect)

/-- What is sent to a dialect for an expression means what the expression does. -/
def Expr.IsMeant (e : Expr) : Prop :=
  ∀ qualify, (e.sent d qualify).eval I = (e.form qualify).eval I

/-- What is sent to a dialect for a select means what the select does. -/
def Select.IsMeant (s : Select) : Prop :=
  (s.sent d).meaning I = s.form.meaning I

namespace Expr

variable {I d} {e : Expr} {query : Select}

theorem isMeant_binary {l r : Expr} (hl : l.IsMeant I d) (hr : r.IsMeant I d) (op : BinaryOp) :
    (Expr.binary l op r).IsMeant I d := by
  intro qualify
  have hl : ((l.emulated d).reading qualify).eval I = _ := hl qualify
  have hr : ((r.emulated d).reading qualify).eval I = _ := hr qualify
  have hplain : (((l.emulated d).reading qualify).binary op
      ((r.emulated d).reading qualify)).eval I = ((Expr.binary l op r).form qualify).eval I := by
    rw [form, SqlExpr.eval, SqlExpr.eval, hl, hr]
  rw [sent, emulated]
  cases op with
  | compare op => exact hplain
  | arithmetic op => exact hplain
  | pattern m =>
    rw [BinaryOp.emulated, PatternMatch.emulated]
    split
    · rename_i hlowered
      have hcase : m.ignoresCase = true := (Bool.and_eq_true_iff.1 hlowered).1
      simp only [reading, form, SqlExpr.eval, meaningsOf, UnaryFunction.function, hl, hr,
        I.operate_lowered hcase]
    · exact hplain

theorem isMeant_quantified (he : e.IsMeant I d) (hquery : query.IsMeant I d) (op : Comparison)
    (quantifier : Quantifier) : (Expr.quantified e op quantifier query).IsMeant I d := by
  intro qualify
  have he : ((e.emulated d).reading qualify).eval I = _ := he qualify
  have hquery : (query.emulated d).reading.meaning I = _ := hquery
  rw [sent, emulated]
  unfold Quantifier.emulated
  split
  · simp only [reading, form, SqlExpr.eval, he, hquery]
  · split
    · simp only [reading, form, SqlExpr.eval, he, hquery]
      rfl
    · simp only [reading, form, SqlExpr.eval, he, hquery, Interpretation.membership_negated]
    · simp only [reading, form, SqlExpr.eval, he, hquery]

theorem meaningsOf_sent {es : List Expr} (h : ∀ c ∈ es, c.IsMeant I d) (qualify : Bool) :
    meaningsOf I (readingsOf qualify (emulatedAll d es)) = meaningsOf I (formsOf qualify es) := by
  simp only [meaningsOf_eq, readingsOf_eq, emulatedAll_eq, formsOf_eq, List.map_map]
  exact List.map_congr_left fun c hc => h c hc qualify

theorem isMeant_junction {parts : List Expr} (h : ∀ c ∈ parts, c.IsMeant I d) (kind : Connective) :
    (Expr.junction kind parts).IsMeant I d := by
  intro qualify
  rw [sent, emulated, form]
  match parts, h with
  | [], _ => rfl
  | [part], h => exact h part (by simp) qualify
  | first :: second :: rest, h =>
    have hparts := meaningsOf_sent h qualify
    simp only [emulatedAll, formsOf, reading, readingsOf, SqlExpr.chained, SqlExpr.eval] at hparts ⊢
    rw [hparts]

theorem isMeant_listMembership {items : List Expr} (he : e.IsMeant I d)
    (h : ∀ c ∈ items, c.IsMeant I d) (negated : Bool) :
    (Expr.listMembership e items negated).IsMeant I d := by
  intro qualify
  have he : ((e.emulated d).reading qualify).eval I = _ := he qualify
  rw [sent, emulated, form]
  match items, h with
  | [], _ =>
    funext x
    simp [emulatedAll, reading, formsOf, SqlExpr.eval, meaningsOf, Truth.value]
  | item :: items, h =>
    have hitems := meaningsOf_sent h qualify
    simp only [emulatedAll, formsOf, reading, readingsOf, SqlExpr.eval] at hitems ⊢
    rw [hitems, he]

/-- The expression that is sent means the same if the parts and the subquery do. -/
theorem isMeant_of_parts (e : Expr) (parts : ∀ c ∈ e.children, c.IsMeant I d)
    (hquery : ∀ s, e.query? = some s → s.IsMeant I d) : e.IsMeant I d := by
  cases e with
  | column c => exact fun _ => rfl
  | literal v type? => exact fun _ => rfl
  | rowCount => exact fun _ => rfl
  | binary l op r =>
    exact isMeant_binary (parts l (by simp [children])) (parts r (by simp [children])) op
  | junction kind es => exact isMeant_junction parts kind
  | listMembership e items negated =>
    exact isMeant_listMembership (parts e (by simp [children]))
      (fun c hc => parts c (List.mem_cons_of_mem _ hc)) negated
  | quantified e op quantifier s =>
    exact isMeant_quantified (parts e (by simp [children])) (hquery s rfl) op quantifier
  | extremum f first second rest =>
    intro qualify
    have harguments := meaningsOf_sent parts qualify
    simp only [children, emulatedAll, formsOf, readingsOf] at harguments
    simp only [sent, emulated, reading, form, SqlExpr.eval, harguments]
  | existence s negated =>
    intro qualify
    have hs : (s.emulated d).reading.meaning I = _ := hquery s rfl
    simp only [sent, emulated, reading, form, SqlExpr.eval, hs]
  | rowMembership e s negated =>
    intro qualify
    have he : ((e.emulated d).reading qualify).eval I = _ := parts e (by simp [children]) qualify
    have hs : (s.emulated d).reading.meaning I = _ := hquery s rfl
    simp only [sent, emulated, reading, form, SqlExpr.eval, he, hs]
  | _ =>
    intro qualify
    have hparts := fun c hc => parts c hc qualify
    simp only [children, List.forall_mem_cons, sent] at hparts
    simp only [sent, emulated, reading, form, SqlExpr.eval, meaningsOf, hparts]

end Expr

namespace Select

variable {I d}

/-- A sort key and the two that are written for it sort alike before any other keys. -/
theorem orderOf_sent {k : SortKey} (h : k.expr.IsMeant I d) (qualify : Bool)
    {ks ks' : List SqlSortKey} (hks : orderOf I ks = orderOf I ks') :
    orderOf I (((k.emulatedWithin d).map (SortKey.reading qualify)) ++ ks) =
      orderOf I (k.form qualify :: ks') := by
  obtain ⟨e, direction, nulls?⟩ := k
  have h : ((e.emulated d).reading qualify).eval I = _ := h qualify
  have hplain : ∀ nulls?, orderOf I (⟨(e.emulated d).reading qualify, direction, nulls?⟩ :: ks) =
      orderOf I (⟨e.form qualify, direction, nulls?⟩ :: ks') := by
    intro nulls?
    funext x y
    rw [orderOf, orderOf, h, hks]
  cases nulls? with
  | none => exact hplain none
  | some nulls =>
    rw [SortKey.emulatedWithin, SortKey.emulated]
    simp only
    split
    · exact hplain (some nulls)
    · funext x y
      have hplaced := I.sortOrder_placed direction nulls none none ((e.form qualify).eval I x)
        ((e.form qualify).eval I y)
      simp only [List.map_cons, List.map_nil, List.cons_append, List.nil_append, SortKey.reading,
        SortKey.form, Expr.reading, orderOf, SqlExpr.eval, h, hks, ← hplaced, Bool.bne_false,
        Ordering.then_assoc]

theorem orderOf_sent_all {ks : List SortKey} (h : ∀ k ∈ ks, k.expr.IsMeant I d) (qualify : Bool) :
    orderOf I ((ks.flatMap (SortKey.emulatedWithin d)).map (SortKey.reading qualify)) =
      orderOf I (ks.map (SortKey.form qualify)) := by
  induction ks with
  | nil => rfl
  | cons k ks ih =>
    rw [List.flatMap_cons, List.map_append, List.map_cons]
    exact orderOf_sent (h k (by simp)) qualify (ih fun j hj => h j (List.mem_cons_of_mem k hj))

theorem meaning_sent_join {j : Join} (h : ∀ e ∈ j.condition?.toList, e.IsMeant I d)
    (qualify : Bool) :
    ((j.emulated d).reading qualify).meaning I = (j.form qualify).meaning I := by
  cases j with
  | cross t => rfl
  | on kind t condition =>
    exact congrArg (JoinMeaning.on kind t.ref) (h condition (by simp [Join.condition?]) qualify)

theorem meaning_sent_clause {e? : Option Expr} (h : ∀ e ∈ e?.toList, e.IsMeant I d)
    (qualify : Bool) :
    ((e?.map (Expr.emulated d)).map (Expr.reading qualify)).map (SqlExpr.eval I) =
      (e?.map (Expr.form qualify)).map (SqlExpr.eval I) := by
  cases e? with
  | none => rfl
  | some e => exact congrArg some (h e (by simp) qualify)

theorem meaning_sent_items {s : Select} (h : ∀ p ∈ s.projections, p.expr.IsMeant I d) :
    (s.emulated d).readingItems.map (SqlItem.meaning I) = s.formItems.map (SqlItem.meaning I) := by
  have hprojection : ∀ p ∈ s.projections,
      ((p.emulated d).reading s.qualifies).meaning I = (p.form s.qualifies).meaning I :=
    fun p hp => congrArg (·, p.alias?) (h p hp s.qualifies)
  rw [readingItems, formItems, qualifies_emulated, emulated_eq]
  simp only [List.isEmpty_map, List.map_map]
  split
  · rfl
  · rw [List.map_map, List.map_map]
    exact List.map_congr_left hprojection

/-- The select that is sent means the same if the expressions of its clauses do. -/
theorem isMeant_of_clauses (s : Select) (clauses : ∀ e ∈ s.clauseExprs, e.IsMeant I d) :
    s.IsMeant I d := by
  obtain ⟨hprojections, hjoins, hfilter, hhaving, horder⟩ := s.forall_clauseExprs.1 clauses
  have hitems := meaning_sent_items hprojections
  have hjoins' : ∀ j ∈ s.joins, ((j.emulated d).reading s.qualifies).meaning I = _ := fun j hj =>
    meaning_sent_join (hjoins j hj) s.qualifies
  rw [IsMeant, sent, reading_eq, form_eq, SqlSelect.meaning_eq, SqlSelect.meaning_eq,
    qualifies_emulated, hitems, emulated_eq]
  simp only [List.map_map, meaning_sent_clause hfilter, meaning_sent_clause hhaving]
  rw [orderOf_sent_all horder]
  congr 1
  exact List.map_congr_left hjoins'

end Select

/-- **What is written for a dialect means what the expression does.** -/
theorem Expr.isMeant (e : Expr) : e.IsMeant I d :=
  Expr.induction (P := fun e => e.IsMeant I d) (Q := fun s => s.IsMeant I d)
    Expr.isMeant_of_parts Select.isMeant_of_clauses e

end Meaning

end TypedSql
