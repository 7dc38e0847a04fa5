import TypedSql.Expr.Induction
import TypedSql.Proofs.Writer

/-!
# What a writer adds

`Writing.LaysOut` is the contract of an act of writing: it adds the pieces of a layout to what there
is, and the layout depends on nothing of the writer but the qualifiers. Contracts compose along
`LaysOut.bind`, so an act has one as soon as its parts have. For expressions and selects this is an
induction over both (`Expr.writesPieces`, `Select.writesPieces`), and the layouts are those of
`Expr.pieces` and `Select.pieces`.

The layout of a select is the same with and without qualifiers around it. A compound select has no
such contract, as it does not go back to the qualifiers from before; but nothing follows it. As a
writer starts without qualifiers, it arrives at the statement that is put together from pieces:
`Statement.compileIn_eq_finish`.
-/

namespace TypedSql

/-- An act of writing adds the pieces of a layout to what there is. The layout depends on nothing of
the writer but the qualifiers. -/
def Writing.LaysOut (spelling : Spelling) (act : Writing) (layout : Bool → List Piece) : Prop :=
  ∀ w : Writer, w.after act = w.append spelling (layout w.qualify)

namespace Writing

section Acts

variable {spelling : Spelling} {a b : Writing} {f g : Bool → List Piece}

theorem LaysOut.congr (h : a.LaysOut spelling f) (hfg : ∀ qualify, f qualify = g qualify) :
    a.LaysOut spelling g :=
  fun w => hfg w.qualify ▸ h w

theorem LaysOut.after_eq (ha : a.LaysOut spelling f) {w : Writer} {ps : List Piece}
    (hps : f w.qualify = ps) : w.after a = w.append spelling ps :=
  hps ▸ ha w

theorem laysOut_nothing : LaysOut spelling (pure ()) fun _ => [] := by
  intro w
  simp [Writer.after_pure, Writer.append, Piece.textsIn, Piece.notices]

/-- What is written one after the other is laid out side by side. -/
theorem LaysOut.bind (ha : a.LaysOut spelling f) (hb : b.LaysOut spelling g) :
    LaysOut spelling (do a; b) fun qualify => f qualify ++ g qualify := by
  intro w
  calc w.after (do a; b)
      = (w.append spelling (f w.qualify)).after b := by rw [Writer.after_bind, ha w]
    _ = (w.append spelling (f w.qualify)).append spelling (g w.qualify) := hb _
    _ = w.append spelling (f w.qualify ++ g w.qualify) := w.append_append spelling _ _

theorem laysOut_push (s : String) : LaysOut spelling (push s) fun _ => [.text s] := by
  intro w
  show (⟨w.text ++ s, w.values, w.notices, w.qualify⟩ : Writer) = _
  simp [Writer.append, Piece.textsIn, Piece.parameters, Piece.parameter?, Piece.notices,
    Piece.notice?]

theorem laysOut_pushIf (asked : Bool) (s : String) :
    LaysOut spelling (pushIf asked s) fun _ => if asked then [.text s] else [] := by
  cases asked with
  | false => exact laysOut_nothing
  | true => exact laysOut_push s

theorem laysOut_note (n : Notice) : LaysOut spelling (note n) fun _ => [.notice n] := by
  intro w
  show (⟨w.text, w.values, w.notices ++ [n], w.qualify⟩ : Writer) = _
  simp [Writer.append, Piece.textsIn, Piece.parameters, Piece.parameter?, Piece.notices,
    Piece.notice?]

theorem laysOut_identifier (name : String) :
    LaysOut spelling (identifier spelling name) fun _ => [.identifier name] :=
  laysOut_push (spelling.identifier name)

theorem laysOut_push_literal (s : String) :
    LaysOut spelling (push (Piece.literal s)) fun _ => [.quotedText s] :=
  laysOut_push (Piece.literal s)

/-- The placeholder of a value has the position of the value among those that are kept. -/
theorem laysOut_parameter (v : Value) :
    LaysOut spelling (parameter spelling v) fun _ => [.parameter v] := by
  intro w
  show (⟨w.text ++ spelling.placeholder (w.values ++ [v]).length, w.values ++ [v], w.notices,
    w.qualify⟩ : Writer) = _
  simp [Writer.append, Piece.textsIn, Piece.parameters, Piece.parameter?, Piece.notices,
    Piece.notice?]

/-- A writer that has gone back to what it did before has not changed its mind. -/
theorem LaysOut.qualifying (ha : a.LaysOut spelling f) (qualify : Bool) :
    LaysOut spelling (qualifying qualify a) fun _ => f qualify := by
  intro w
  have hinside := ha { w with qualify }
  show { Writer.after { w with qualify } a with qualify := w.qualify } = _
  rw [hinside]
  rfl

theorem LaysOut.enclosedIf (ha : a.LaysOut spelling f) (compound : Bool) :
    LaysOut spelling (enclosedIf compound a) fun qualify =>
      Piece.enclosedIf compound (f qualify) := by
  cases compound with
  | false => exact ha
  | true => exact (laysOut_push "(").bind (ha.bind (laysOut_push ")"))

theorem laysOut_separated {α : Type} (separator : String) {act : α → Writing}
    {layout : α → Bool → List Piece} (xs : List α)
    (h : ∀ x ∈ xs, (act x).LaysOut spelling (layout x)) :
    LaysOut spelling (separated separator (xs.map act)) fun qualify =>
      Piece.separated separator (xs.map fun x => layout x qualify) := by
  induction xs with
  | nil => exact laysOut_nothing
  | cons x xs ih =>
    obtain ⟨hx, hxs⟩ := List.forall_mem_cons.1 h
    cases xs with
    | nil => exact hx
    | cons y ys => exact hx.bind ((laysOut_push separator).bind (ih hxs))

theorem LaysOut.call (ha : a.LaysOut spelling f) (d : Dialect) (fn : SqlFunction) :
    LaysOut spelling (call d fn a) fun qualify => callPieces d fn (f qualify) :=
  (laysOut_push (d.functionName fn)).bind ((laysOut_push "(").bind (ha.bind (laysOut_push ")")))

theorem laysOut_clause {α : Type} (keyword : String) {act : α → Writing}
    {layout : α → Bool → List Piece} (x? : Option α)
    (h : ∀ x ∈ x?.toList, (act x).LaysOut spelling (layout x)) :
    LaysOut spelling (clause keyword (x?.map act)) fun qualify =>
      clausePieces keyword (x?.map fun x => layout x qualify) := by
  cases x? with
  | none => exact laysOut_nothing
  | some x => exact (laysOut_push keyword).bind (h x (by simp))

end Acts

end Writing

open Writing

/-! ### Names and clauses -/

section Parts

variable {spelling : Spelling} {d : Dialect}

theorem Column.laysOut (c : Column) :
    (c.write spelling).LaysOut spelling fun qualify => c.pieces qualify := by
  have hname : LaysOut spelling (identifier spelling c.name) fun _ => [.identifier c.name] :=
    laysOut_identifier c.name
  have hqualified : LaysOut spelling (do
      identifier spelling c.qualifier
      push "."
      identifier spelling c.name) fun _ =>
        [.identifier c.qualifier, .text ".", .identifier c.name] :=
    (laysOut_identifier c.qualifier).bind ((laysOut_push ".").bind hname)
  intro w
  show w.after (if w.qualify then _ else _) = _
  cases hw : w.qualify with
  | false => exact hname w
  | true => exact hqualified w

theorem Table.laysOut_name (t : Table) :
    (t.writeName spelling).LaysOut spelling fun _ => t.namePieces := by
  unfold writeName namePieces
  cases t.ref.schema? with
  | none => exact laysOut_identifier t.ref.name
  | some schema =>
    exact (laysOut_identifier schema).bind ((laysOut_push ".").bind (laysOut_identifier t.ref.name))

theorem Table.laysOut (t : Table) :
    (t.write spelling).LaysOut spelling fun _ => t.sourcePieces := by
  refine t.laysOut_name.bind ?_
  cases t.ref.alias? with
  | none => exact laysOut_nothing
  | some name => exact (laysOut_push " AS ").bind (laysOut_identifier name)

section Operands

variable {a b : Writing} {f g : Bool → List Piece} (ha : a.LaysOut spelling f)
  (hb : b.LaysOut spelling g)
include ha hb

theorem laysOut_between (operator : String) (l r : Expr) :
    (writeBetween operator l r a b).LaysOut spelling fun qualify =>
      Piece.enclosedIf (!l.isAtomic) (f qualify) ++ .text (" " ++ operator ++ " ") ::
        Piece.enclosedIf (!r.isAtomic) (g qualify) :=
  (ha.enclosedIf (!l.isAtomic)).bind
    ((laysOut_push (" " ++ operator ++ " ")).bind (hb.enclosedIf (!r.isAtomic)))

theorem PatternMatch.laysOut (m : PatternMatch) (l r : Expr) :
    (m.write d l r a b).LaysOut spelling fun qualify => m.pieces d l r (f qualify) (g qualify) := by
  unfold write pieces
  cases m.ignoresCase && !d.supportsIlike with
  | false => exact laysOut_between ha hb m.sql l r
  | true =>
    refine LaysOut.congr ((laysOut_note .ilikeEmulated).bind ((laysOut_push "LOWER(").bind
      (ha.bind ((laysOut_push _).bind (hb.bind (laysOut_push ")")))))) fun qualify => ?_
    simp

theorem BinaryOp.laysOut (op : BinaryOp) (l r : Expr) :
    (op.write d l r a b).LaysOut spelling fun qualify =>
      op.pieces d l r (f qualify) (g qualify) := by
  cases op with
  | pattern m => exact m.laysOut ha hb l r
  | compare op => exact laysOut_between ha hb op.sql l r
  | arithmetic op => exact laysOut_between ha hb op.sql l r

end Operands

theorem Quantifier.laysOut_opening (op : Comparison) (quantifier : Quantifier) :
    (quantifier.writeOpening d op).LaysOut spelling fun _ => quantifier.opening d op := by
  have hwritten : LaysOut spelling (push (" " ++ op.sql ++ " " ++ quantifier.sql ++ " (")) _ :=
    laysOut_push _
  have hnoted := (laysOut_note (.quantifiedUnsupported op quantifier)).bind hwritten
  unfold writeOpening opening
  cases d.supportsQuantified with
  | true => exact hwritten
  | false =>
    -- Only `= ANY` and `!= ALL` have other words.
    cases op <;> cases quantifier
    case eq.any => exact laysOut_push _
    case notEq.all => exact laysOut_push _
    all_goals exact hnoted

theorem laysOut_sortKey (e : Expr) (direction : Direction) (nulls? : Option NullPlacement)
    {a : Writing} {f : Bool → List Piece} (ha : a.LaysOut spelling f) :
    (writeSortKey d e direction nulls? a).LaysOut spelling fun qualify =>
      sortKeyPieces d e direction nulls? (f qualify) := by
  have hsorted := ha.bind (laysOut_push (" " ++ direction.sql))
  cases nulls? with
  | none => exact hsorted
  | some nulls =>
    unfold writeSortKey sortKeyPieces
    cases d.supportsNullPlacement with
    | true => exact hsorted.bind (laysOut_push (" " ++ nulls.sql))
    | false =>
      refine LaysOut.congr ((laysOut_note .nullPlacementEmulated).bind
        ((ha.enclosedIf (!e.isAtomic)).bind ((laysOut_push _).bind hsorted))) fun qualify => ?_
      cases nulls <;> simp

theorem laysOut_order {α : Type} {act : α → Writing} {layout : α → Bool → List Piece} (ks : List α)
    (h : ∀ k ∈ ks, (act k).LaysOut spelling (layout k)) :
    (writeOrder (ks.map act)).LaysOut spelling fun qualify =>
      orderPieces (ks.map fun k => layout k qualify) := by
  cases ks with
  | nil => exact laysOut_nothing
  | cons k ks => exact (laysOut_push " ORDER BY ").bind (laysOut_separated ", " (k :: ks) h)

theorem laysOut_page (limit? offset? : Option Nat) :
    (writePage d limit? offset?).LaysOut spelling fun _ => pagePieces d limit? offset? := by
  unfold writePage writeLimit pagePieces
  cases limit? with
  | some n =>
    cases offset? with
    | none => exact (laysOut_push _).bind laysOut_nothing
    | some m => exact (laysOut_push _).bind (laysOut_push _)
  | none =>
    cases offset? with
    | none => exact laysOut_nothing.bind laysOut_nothing
    | some m =>
      cases d.unboundedLimit? with
      | none => exact laysOut_nothing.bind (laysOut_push _)
      | some s => exact (laysOut_push _).bind (laysOut_push _)

theorem laysOut_returning (columns : List Column) :
    (writeReturning d spelling columns).LaysOut spelling fun qualify =>
      if columns.isEmpty then []
      else (if d.supportsReturning then [] else [.notice .returningUnsupported]) ++
        .text " RETURNING " :: Piece.commaSeparated (columns.map (Column.pieces qualify)) := by
  have hcolumns : LaysOut spelling (commaSeparated (columns.map (Column.write spelling)))
      fun qualify => Piece.commaSeparated (columns.map (Column.pieces qualify)) :=
    laysOut_separated ", " columns fun c _ => c.laysOut
  have hwritten := (laysOut_push " RETURNING ").bind hcolumns
  unfold writeReturning
  cases columns.isEmpty with
  | true => exact laysOut_nothing
  | false =>
    cases d.supportsReturning with
    | true => exact hwritten
    | false => exact (laysOut_note _).bind hwritten

end Parts

/-! ### Expressions and selects -/

section Trees

variable (d : Dialect) (spelling : Spelling)

/-- An expression is written as it is laid out. -/
def Expr.WritesPieces (e : Expr) : Prop :=
  (e.write d spelling).LaysOut spelling fun qualify => e.pieces d qualify

/-- A select is written as it is laid out, whatever the qualifiers around it. -/
def Select.WritesPieces (s : Select) : Prop :=
  (s.write d spelling).LaysOut spelling fun _ => s.pieces d

variable {d spelling}

/-- An expression is written as it is laid out if its parts and its subquery are. -/
theorem Expr.writesPieces_of_parts (e : Expr) (parts : ∀ c ∈ e.children, c.WritesPieces d spelling)
    (query : ∀ s, e.query? = some s → s.WritesPieces d spelling) : e.WritesPieces d spelling := by
  cases e with
  | column c => exact c.laysOut
  | literal v type? => exact laysOut_parameter v
  | rowCount => exact (laysOut_push "*").call d .count
  | negation e => exact (laysOut_push "-").bind ((parts e (.head _)).enclosedIf _)
  | complement e =>
    exact (laysOut_push "NOT (").bind ((parts e (.head _)).bind (laysOut_push ")"))
  | nullTest e negated => exact ((parts e (.head _)).enclosedIf _).bind (laysOut_push _)
  | binary l op r => exact op.laysOut (parts l (.head _)) (parts r (.tail _ (.head _))) l r
  | junction kind es =>
    have hparts : ∀ e ∈ es, LaysOut spelling (Writing.enclosedIf e.isJunction (e.write d spelling))
        fun qualify => Piece.enclosedIf e.isJunction (e.pieces d qualify) :=
      fun e he => (parts e he).enclosedIf e.isJunction
    unfold WritesPieces write pieces
    rw [writeParts_eq]
    simp only [partPieces_eq]
    cases es with
    | nil => exact laysOut_push _
    | cons e es => exact laysOut_separated _ _ hparts
  | valueCount distinct e =>
    exact ((laysOut_pushIf distinct "DISTINCT ").bind (parts e (.head _))).call d .count
  | apply f e => exact (parts e (.head _)).call d f.function
  | orElse e fallback =>
    exact (laysOut_separated ", " [e, fallback] parts).call d .coalesce
  | extremum f first second rest =>
    have hall := (laysOut_separated ", " (first :: second :: rest) parts).call d f.function
    unfold WritesPieces write pieces
    rw [writeItems_eq]
    simp only [itemPieces_eq]
    exact hall
  | joinedText e separator =>
    have hargument := parts e (.head _)
    unfold WritesPieces write pieces
    cases d.separatorClause with
    | true =>
      exact (hargument.bind ((laysOut_push " SEPARATOR ").bind
        (laysOut_push_literal separator))).call d .stringAgg
    | false =>
      exact (hargument.bind ((laysOut_push ", ").bind
        (laysOut_parameter (.text separator)))).call d .stringAgg
  | listMembership e items negated =>
    obtain ⟨he, hitems⟩ := List.forall_mem_cons.1 parts
    have hlist := laysOut_separated ", " items hitems
    unfold WritesPieces write pieces
    rw [writeItems_eq]
    simp only [itemPieces_eq]
    cases items with
    | nil => exact laysOut_push _
    | cons item items =>
      refine LaysOut.congr ((he.enclosedIf _).bind ((laysOut_push _).bind
        (hlist.bind (laysOut_push ")")))) fun qualify => ?_
      simp [Piece.commaSeparated]
  | rowMembership e s negated =>
    refine LaysOut.congr (((parts e (.head _)).enclosedIf _).bind
      ((laysOut_push _).bind ((query s rfl).bind (laysOut_push ")")))) fun qualify => ?_
    simp [pieces]
  | range e low high negated =>
    obtain ⟨he, hbounds⟩ := List.forall_mem_cons.1 parts
    have hlow := (hbounds low (.head _)).enclosedIf (!low.isAtomic)
    have hhigh := (hbounds high (.tail _ (.head _))).enclosedIf (!high.isAtomic)
    refine LaysOut.congr ((he.enclosedIf _).bind ((laysOut_push _).bind
      (hlow.bind ((laysOut_push " AND ").bind hhigh)))) fun qualify => ?_
    simp [pieces]
  | existence s negated => exact (laysOut_push _).bind ((query s rfl).bind (laysOut_push ")"))
  | quantified e op quantifier s =>
    refine LaysOut.congr (((parts e (.head _)).enclosedIf _).bind
      ((quantifier.laysOut_opening op).bind ((query s rfl).bind (laysOut_push ")"))))
      fun qualify => ?_
    simp [pieces]

/-- The conditions of joins are written among the joins. -/
theorem Join.laysOut {j : Join} (h : ∀ e ∈ j.condition?.toList, e.WritesPieces d spelling) :
    (j.write d spelling).LaysOut spelling fun qualify => j.pieces d qualify := by
  cases j with
  | on kind t condition =>
    refine LaysOut.congr ((laysOut_push _).bind (t.laysOut.bind
      ((laysOut_push " ON ").bind (h condition (by simp [condition?]))))) fun qualify => ?_
    simp [pieces]
  | cross t => exact (laysOut_push _).bind t.laysOut

theorem laysOut_joins {js : List Join}
    (h : ∀ j ∈ js, ∀ e ∈ j.condition?.toList, e.WritesPieces d spelling) :
    (writeJoins d spelling js).LaysOut spelling fun qualify =>
      js.flatMap (Join.pieces d qualify) := by
  induction js with
  | nil => exact laysOut_nothing
  | cons j js ih =>
    obtain ⟨hj, hjs⟩ := List.forall_mem_cons.1 h
    have hboth := (Join.laysOut hj).bind (ih hjs)
    cases j with
    | on kind t condition => exact hboth
    | cross t => exact hboth

theorem Projection.laysOut {p : Projection} (h : p.expr.WritesPieces d spelling) :
    (p.write d spelling).LaysOut spelling fun qualify => p.pieces d qualify := by
  obtain ⟨e, alias?⟩ := p
  refine h.bind ?_
  cases alias? with
  | none => exact laysOut_nothing
  | some name => exact (laysOut_push " AS ").bind (laysOut_identifier name)

theorem laysOut_condition {keyword : String} {e? : Option Expr}
    (h : ∀ e ∈ e?.toList, e.WritesPieces d spelling) :
    (clause keyword (writeCondition d spelling e?)).LaysOut spelling fun qualify =>
      clausePieces keyword (conditionPieces d qualify e?) := by
  rw [writeCondition_eq]
  simp only [conditionPieces_eq]
  exact laysOut_clause keyword e? h

theorem laysOut_sortKeys {ks : List SortKey} (h : ∀ k ∈ ks, k.expr.WritesPieces d spelling) :
    (writeOrder (writeSortKeys d spelling ks)).LaysOut spelling fun qualify =>
      orderPieces (sortPieces d qualify ks) := by
  rw [writeSortKeys_eq]
  simp only [sortPieces_eq]
  exact laysOut_order ks fun k hk => laysOut_sortKey k.expr k.direction k.nulls? (h k hk)

/-- The result columns of a select, which are all columns of its first table if it lists none. -/
theorem laysOut_results (source : Table) {ps : List Projection}
    (h : ∀ p ∈ ps, p.expr.WritesPieces d spelling) :
    LaysOut spelling
      (commaSeparated (if ps.isEmpty then source.columns.map (Column.write spelling)
        else writeProjections d spelling ps))
      fun qualify => Piece.commaSeparated
        (resultColumns qualify source (projectionPieces d qualify ps)) := by
  rw [writeProjections_eq]
  simp only [projectionPieces_eq]
  cases ps with
  | nil => exact laysOut_separated ", " source.columns fun c _ => c.laysOut
  | cons p ps => exact laysOut_separated ", " (p :: ps) fun q hq => Projection.laysOut (h q hq)

theorem laysOut_group (columns : List Column) :
    LaysOut spelling
      (clause " GROUP BY " (if columns.isEmpty then none
        else some (commaSeparated (columns.map (Column.write spelling)))))
      fun qualify => clausePieces " GROUP BY " (if columns.isEmpty then none
        else some (Piece.commaSeparated (columns.map (Column.pieces qualify)))) := by
  cases columns with
  | nil => exact laysOut_nothing
  | cons c cs =>
    exact (laysOut_push " GROUP BY ").bind (laysOut_separated ", " (c :: cs) fun c _ => c.laysOut)

/-- A select is written as it is laid out if the expressions of its clauses are. -/
theorem Select.writesPieces_of_clauses (s : Select)
    (clauses : ∀ e ∈ s.clauseExprs, e.WritesPieces d spelling) : s.WritesPieces d spelling := by
  obtain ⟨hprojections, hjoins, hfilter, hhaving, horder⟩ := s.forall_clauseExprs.1 clauses
  obtain ⟨distinct, projections, source, correlated, joins, filter?, groupBy, having?, orderBy,
    limit?, offset?⟩ := s
  -- The contracts of the clauses in the order in which they are written, inside of one change of
  -- mind about the qualifiers.
  refine LaysOut.congr (LaysOut.qualifying ((laysOut_push "SELECT ").bind
    ((laysOut_pushIf distinct "DISTINCT ").bind ((laysOut_results source hprojections).bind
      ((laysOut_push " FROM ").bind (source.laysOut.bind ((laysOut_joins hjoins).bind
        ((laysOut_condition hfilter).bind ((laysOut_group groupBy).bind
          ((laysOut_condition hhaving).bind ((laysOut_sortKeys horder).bind
            (laysOut_page limit? offset?))))))))))) _) fun qualify => ?_
  simp [pieces, joinPieces_eq]

/-- **Expressions are written as they are laid out.** -/
theorem Expr.writesPieces (e : Expr) : e.WritesPieces d spelling :=
  Expr.induction Expr.writesPieces_of_parts Select.writesPieces_of_clauses e

/-- **Selects are written as they are laid out**, whatever the qualifiers around them. -/
theorem Select.writesPieces (s : Select) : s.WritesPieces d spelling :=
  s.writesPieces_of_clauses fun e _ => e.writesPieces

end Trees

/-! ### Statements -/

section Statements

variable (d : Dialect) (spelling : Spelling)

theorem laysOut_members (members : List (SetOperator × Select)) :
    (writeMembers d spelling members).LaysOut spelling fun _ => memberPieces d members := by
  induction members with
  | nil => exact laysOut_nothing
  | cons m members ih =>
    obtain ⟨op, s⟩ := m
    refine LaysOut.congr ((laysOut_push _).bind (s.writesPieces.bind ih)) fun qualify => ?_
    simp [memberPieces]

variable {w : Writer} (hw : w.qualify = false)
include hw

/-- Where columns are not qualified, the sort keys of a compound select change nothing in that. -/
theorem CompoundSelect.after_write (c : CompoundSelect) :
    w.after (c.write d spelling) = w.append spelling (c.pieces d) := by
  let members : Writing := do
    c.first.write d spelling
    writeMembers d spelling c.rest
  let paging : Writing := do
    writeOrder (writeSortKeys d spelling c.orderBy)
    writePage d c.limit? c.offset?
  have hmembers : members.LaysOut spelling fun _ => c.first.pieces d ++ memberPieces d c.rest :=
    c.first.writesPieces.bind (laysOut_members d spelling c.rest)
  have hpaging : paging.LaysOut spelling fun qualify =>
      orderPieces (sortPieces d qualify c.orderBy) ++ pagePieces d c.limit? c.offset? :=
    (laysOut_sortKeys fun k _ => k.expr.writesPieces).bind (laysOut_page c.limit? c.offset?)
  calc w.after (c.write d spelling)
      = { w.after members with qualify := false }.after paging := rfl
    -- The members leave the qualifiers off, as they were, so turning them off does nothing.
    _ = (w.append spelling (c.first.pieces d ++ memberPieces d c.rest)).after paging := by
      rw [hmembers w, ← hw]
      rfl
    _ = w.append spelling (c.pieces d) := by
      rw [hpaging, Writer.append_append]
      simp [Writer.append, hw, pieces]

theorem Insert.after_write (i : Insert) :
    w.after (i.write d spelling) = w.append spelling (i.pieces d) := by
  have hcolumns : LaysOut spelling
      (commaSeparated (i.columns.map fun c => identifier spelling c.name))
      fun _ => Piece.commaSeparated (i.columns.map (Column.pieces false)) :=
    laysOut_separated ", " i.columns fun c _ => laysOut_identifier c.name
  have hrow : ∀ row ∈ i.rows, LaysOut spelling
      (Writing.enclosedIf true (commaSeparated (writeItems d spelling row)))
      fun qualify => Piece.parenthesized (Piece.commaSeparated (itemPieces d qualify row)) := by
    intro row _
    rw [writeItems_eq]
    simp only [itemPieces_eq]
    exact (laysOut_separated ", " row fun e _ => e.writesPieces).enclosedIf true
  have hrows := laysOut_separated ", " i.rows hrow
  refine LaysOut.after_eq ((laysOut_push "INSERT INTO ").bind (i.table.laysOut_name.bind
    ((laysOut_push " (").bind (hcolumns.bind ((laysOut_push ") VALUES ").bind
      (hrows.bind (laysOut_returning i.returning))))))) ?_
  have hlaid : rowPieces d =
      fun row => Piece.parenthesized (Piece.commaSeparated (itemPieces d false row)) := rfl
  rw [hw]
  simp [pieces, returningPieces, Piece.commaSeparated, hlaid]

theorem Update.after_write (u : Update) :
    w.after (u.write d spelling) = w.append spelling (u.pieces d) := by
  have hassignment : ∀ a ∈ u.assignments, LaysOut spelling (writeAssignment d spelling a)
      fun qualify => .identifier a.1.name :: .text " = " :: a.2.pieces d qualify :=
    fun a _ => (laysOut_identifier a.1.name).bind ((laysOut_push " = ").bind a.2.writesPieces)
  have hassignments := laysOut_separated ", " u.assignments hassignment
  refine LaysOut.after_eq ((laysOut_push "UPDATE ").bind (u.table.laysOut.bind
    ((laysOut_push " SET ").bind (hassignments.bind
      ((laysOut_condition fun e _ => e.writesPieces).bind (laysOut_returning u.returning)))))) ?_
  have hlaid : assignmentPieces d =
      fun a => .identifier a.1.name :: .text " = " :: a.2.pieces d false := rfl
  rw [hw]
  simp [pieces, returningPieces, Piece.commaSeparated, hlaid]

theorem Delete.after_write (x : Delete) :
    w.after (x.write d spelling) = w.append spelling (x.pieces d) := by
  refine LaysOut.after_eq ((laysOut_push "DELETE FROM ").bind (x.table.laysOut.bind
    ((laysOut_condition fun e _ => e.writesPieces).bind (laysOut_returning x.returning)))) ?_
  rw [hw]
  simp [pieces, returningPieces]

theorem Statement.after_write (s : Statement) :
    w.after (s.write d spelling) = w.append spelling (s.pieces d) := by
  cases s with
  | select s => exact s.writesPieces w
  | compound c => exact c.after_write d spelling hw
  | insert i _ => exact i.after_write d spelling hw
  | update u _ => exact u.after_write d spelling hw
  | delete x _ => exact x.after_write d spelling hw

omit hw in
/-- **A writer arrives at the compiled statement.** -/
theorem Statement.compileIn_eq_finish (s : Statement) :
    s.compileIn d spelling = (Writer.start.after (s.write d spelling)).finish := by
  rw [s.after_write d spelling rfl]
  simp [compileIn, Writer.finish, Writer.append, Writer.start]

end Statements

end TypedSql
