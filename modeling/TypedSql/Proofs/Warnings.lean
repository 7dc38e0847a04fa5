import TypedSql.Event
import TypedSql.Proofs.Literals
import TypedSql.Proofs.Walks

/-!
# Warnings

A dialect says what it has, and what it does not have is written in other words as far as there are
any. `Statement.warnings` lists what is left, in the order in which it is written: quantified
comparisons other than `= ANY` and `!= ALL` where the dialect does not say that it knows them, once
for each time that they are written, and returned columns where it does not say that it can return
them. The main statement is `events_exact`: these are the warnings of a compilation, and they come
before the one event that counts the parameters and the one that holds the text.
-/

namespace TypedSql

/-! ### What a dialect does not have -/

/-- The comparison is membership, or its opposite, in other words. -/
def Quantifier.IsMembership : Quantifier → Comparison → Prop
  | .any, op => op = .eq
  | .all, op => op = .notEq

instance (quantifier : Quantifier) (op : Comparison) :
    Decidable (quantifier.IsMembership op) := by
  cases quantifier <;> exact inferInstanceAs (Decidable (_ = _))

/-- What a dialect neither has nor has other words for, at an expression. -/
def Expr.unadvertised (d : Dialect) : Expr → List Notice
  | .quantified _ op quantifier _ =>
    if d.supportsQuantified = true ∨ quantifier.IsMembership op then []
    else [.quantifiedUnsupported op quantifier]
  | _ => []

/-- Marks for what a dialect does not have; a sort key is written twice where the placement of NULL
is a sort key of its own. -/
def Dialect.warningMarks (d : Dialect) : Marks Notice where
  opening := fun _ => []
  middle := Expr.unadvertised d
  repeatsPlacedKeys := !d.supportsNullPlacement

/-- The columns that a statement returns. -/
def Statement.returned : Statement → List Column
  | .select _ | .compound _ => []
  | .insert i _ => i.returning
  | .update u _ => u.returning
  | .delete x _ => x.returning

/-- What is written for a statement although the dialect does not say that it has it. -/
def Statement.warnings (s : Statement) (d : Dialect) : List Notice :=
  s.walk d.warningMarks ++
    if s.returned.isEmpty || d.supportsReturning then [] else [.returningUnsupported]

/-! ### What is written -/

/-- The warning that a piece is. -/
def Piece.warning? : Piece → Option Notice
  | .notice n => if n.level = .warn then some n else none
  | _ => none

namespace Piece

theorem warning?_ignoresText : IgnoresText warning? := fun _ => rfl

theorem warning?_ignoresNames : IgnoresNames warning? := fun _ => rfl

theorem warning?_ignoresEmulations : IgnoresEmulations warning? := ⟨rfl, rfl⟩

/-- The warnings among pieces are their notices that warn. -/
theorem filter_notices (ps : List Piece) :
    (notices ps).filter (fun n => n.level = .warn) = ps.filterMap warning? := by
  rw [notices, List.filter_filterMap]
  congr
  funext p
  cases p <;> simp [notice?, warning?, Option.filter]

end Piece

section Warnings

variable {d : Dialect}

/-- Between its subject and its subquery, a comparison warns of itself. -/
theorem Expr.comparisonView_warning? (e : Expr) :
    e.comparisonView d Piece.warning? = e.unadvertised d := by
  cases e with
  | quantified e op quantifier query =>
    cases h : d.supportsQuantified <;> cases op <;> cases quantifier <;>
      simp [comparisonView, unadvertised, Quantifier.opening, Quantifier.IsMembership, h,
        Piece.warning?, Notice.level]
  | _ => rfl

/-- The marks of an expression are those of its parts, then its own, then those of its subquery. -/
theorem Expr.walk_warningMarks (qualify : Bool) (e : Expr) :
    e.walk d.warningMarks =
      e.assembled d Piece.warning? qualify (Expr.walk d.warningMarks)
        (fun s => e.unadvertised d ++ s.walk d.warningMarks) := by
  cases e with
  | column c =>
    exact (c.view_pieces Piece.warning?_ignoresText Piece.warning?_ignoresNames qualify).symm
  | joinedText e separator =>
    cases h : d.separatorClause <;>
      simp [Expr.walk, Expr.assembled, Dialect.warningMarks, Piece.warning?, h]
  | listMembership e items negated =>
    cases items <;>
      simp [Expr.walk, Expr.assembled, Expr.children, Expr.query?, walkAll_eq,
        Dialect.warningMarks]
  | literal v type? => rfl
  | rowCount => rfl
  | _ =>
    simp [Expr.walk, Expr.assembled, Expr.children, Expr.query?, walkAll_eq,
      Dialect.warningMarks, Expr.unadvertised]

/-- A select warns of what its expressions warn of. -/
theorem Select.warnings_pieces_of_clauses (s : Select)
    (h : ∀ e ∈ s.clauseExprs, ∀ qualify,
      (e.pieces d qualify).filterMap Piece.warning? = e.walk d.warningMarks) :
    (s.pieces d).filterMap Piece.warning? = s.walk d.warningMarks := by
  obtain ⟨hprojections, hjoins, hfilter, hhaving, hkeys⟩ :=
    s.forall_clauseExprs.1 fun e he => h e he s.qualifies
  have hkeys' : ∀ k ∈ s.orderBy,
      Piece.keyView (!d.supportsNullPlacement) k.nulls?
          ((k.expr.pieces d s.qualifies).filterMap Piece.warning?) =
        Piece.keyView (!d.supportsNullPlacement) k.nulls? (k.expr.walk d.warningMarks) :=
    fun k hk => by rw [hkeys k hk]
  rw [s.view_clauses Piece.warning?_ignoresText Piece.warning?_ignoresNames
      Piece.warning?_ignoresEmulations, Select.walk_eq, List.flatMap_congr hprojections,
    List.flatMap_congr fun j hj => List.flatMap_congr (hjoins j hj), List.flatMap_congr hfilter,
    List.flatMap_congr hhaving, List.flatMap_congr hkeys']
  rfl

/-- **Expressions warn of what a walk finds.** -/
theorem Expr.warnings_pieces (e : Expr) (qualify : Bool) :
    (e.pieces d qualify).filterMap Piece.warning? = e.walk d.warningMarks := by
  refine Expr.induction
    (P := fun e => ∀ qualify,
      (e.pieces d qualify).filterMap Piece.warning? = e.walk d.warningMarks)
    (Q := fun s => (s.pieces d).filterMap Piece.warning? = s.walk d.warningMarks)
    (fun e parts query qualify => ?_) Select.warnings_pieces_of_clauses e qualify
  rw [Expr.view_parts Piece.warning?_ignoresText Piece.warning?_ignoresEmulations,
    e.comparisonView_warning?, e.walk_warningMarks qualify]
  exact Expr.assembled_congr _ _ _ e (fun c hc => parts c hc qualify)
    fun s hs => congrArg (e.unadvertised d ++ ·) (query s hs)

theorem Select.warnings_pieces (s : Select) :
    (s.pieces d).filterMap Piece.warning? = s.walk d.warningMarks :=
  s.warnings_pieces_of_clauses fun e _ => e.warnings_pieces

theorem warnings_filterPieces (e? : Option Expr) :
    (clausePieces " WHERE " (conditionPieces d false e?)).filterMap Piece.warning? =
      walkClause d.warningMarks e? := by
  cases e? with
  | none => rfl
  | some e => exact e.warnings_pieces false

theorem warnings_orderPieces (ks : List SortKey) :
    (orderPieces (sortPieces d false ks)).filterMap Piece.warning? =
      walkSortKeys d.warningMarks ks := by
  have hkey : ∀ k : SortKey, (k.pieces d false).filterMap Piece.warning? =
      Piece.keyView (!d.supportsNullPlacement) k.nulls? (k.expr.walk d.warningMarks) := by
    intro k
    rw [← k.expr.warnings_pieces false]
    exact Piece.view_sortKey Piece.warning?_ignoresText Piece.warning?_ignoresEmulations ..
  rw [Piece.view_orderPieces Piece.warning?_ignoresText, sortPieces_eq, List.flatMap_map,
    walkSortKeys_eq]
  exact List.flatMap_congr fun k _ => hkey k

theorem warnings_columns (cs : List Column) :
    (Piece.commaSeparated (cs.map (Column.pieces false))).filterMap Piece.warning? = [] := by
  rw [Piece.view_commaSeparated Piece.warning?_ignoresText, List.flatMap_map]
  exact Column.view_flatMap_pieces Piece.warning?_ignoresText Piece.warning?_ignoresNames false cs

/-- Returned columns are warned of where the dialect does not say that it can return them. -/
theorem warnings_returningPieces (columns : List Column) :
    (returningPieces d columns).filterMap Piece.warning? =
      if columns.isEmpty || d.supportsReturning then [] else [.returningUnsupported] := by
  have htext : ∀ ps : List Piece, (Piece.text " RETURNING " :: ps).filterMap Piece.warning? =
      ps.filterMap Piece.warning? := Piece.view_text_cons Piece.warning?_ignoresText " RETURNING "
  cases columns with
  | nil => rfl
  | cons c cs =>
    rw [returningPieces, if_neg (by simp), List.filterMap_append, htext, warnings_columns]
    cases h : d.supportsReturning <;> simp [Piece.warning?, Notice.level]

/-- **Statements warn of what the dialect does not have.** -/
theorem Statement.warnings_pieces (s : Statement) :
    (s.pieces d).filterMap Piece.warning? = s.warnings d := by
  have htext := fun t ps => Piece.view_text_cons Piece.warning?_ignoresText t ps
  have hsource : ∀ t : Table, t.sourcePieces.filterMap Piece.warning? = [] :=
    fun t => t.view_sourcePieces Piece.warning?_ignoresText Piece.warning?_ignoresNames
  cases s with
  | select s => simp [pieces, warnings, walk, returned, s.warnings_pieces]
  | compound c =>
    have hmembers : (memberPieces d c.rest).filterMap Piece.warning? =
        (c.rest.map Prod.snd).flatMap (Select.walk d.warningMarks) := by
      simp [memberPieces, List.filterMap_flatMap, List.flatMap_map, htext, Select.warnings_pieces]
    have hpage := Piece.view_pagePieces Piece.warning?_ignoresText d c.limit? c.offset?
    simp [pieces, CompoundSelect.pieces, warnings, walk, returned, CompoundSelect.walk,
      CompoundSelect.members, hmembers, hpage, warnings_orderPieces, Select.warnings_pieces]
  | insert i complete =>
    have hname : i.table.namePieces.filterMap Piece.warning? = [] := by
      unfold Table.namePieces
      split <;> rfl
    have hrow : ∀ row : List Expr, (rowPieces d row).filterMap Piece.warning? =
        row.flatMap (Expr.walk d.warningMarks) := by
      intro row
      rw [rowPieces, Piece.view_parenthesized Piece.warning?_ignoresText,
        Piece.view_commaSeparated Piece.warning?_ignoresText, itemPieces_eq, List.flatMap_map]
      exact List.flatMap_congr fun e _ => e.warnings_pieces false
    have hcolumns := warnings_columns i.columns
    have hrows : (Piece.commaSeparated (i.rows.map (rowPieces d))).filterMap Piece.warning? =
        i.walk d.warningMarks := by
      rw [Piece.view_commaSeparated Piece.warning?_ignoresText, List.flatMap_map]
      exact List.flatMap_congr fun row _ => hrow row
    simp [pieces, Insert.pieces, warnings, walk, returned, htext, hname, hcolumns, hrows,
      warnings_returningPieces]
  | update u complete =>
    have hassignment : ∀ a : Column × Expr, (assignmentPieces d a).filterMap Piece.warning? =
        a.2.walk d.warningMarks := by
      intro a
      simp [assignmentPieces, htext, Expr.warnings_pieces,
        Column.view_pieces Piece.warning?_ignoresText Piece.warning?_ignoresNames]
    simp [pieces, Update.pieces, warnings, walk, returned, Update.walk, htext, hsource,
      hassignment, warnings_filterPieces, warnings_returningPieces,
      Piece.view_commaSeparated Piece.warning?_ignoresText, List.flatMap_map]
  | delete x complete =>
    simp [pieces, Delete.pieces, warnings, walk, returned, Delete.walk, htext, hsource,
      warnings_filterPieces, warnings_returningPieces]

end Warnings

/-! ### Events -/

/-- The event is a notice. -/
def Event.IsNotice (e : Event) : Prop :=
  ∃ dialect n, e = .noticed dialect n

/-- The event has a field of this name. -/
def Event.hasField (name : String) (e : Event) : Bool :=
  (e.fields.lookup name).isSome

/-- **Warnings are exact.** For every statement and every dialect, the warnings of a compilation are
of what is written although the dialect does not say that it has it: one for each time that a
quantified comparison is written that is not membership in other words, where the dialect does not
say that it knows these, and one for returned columns, where it does not say that it can return
them. After all notices comes the one event that has a field for the number of parameters, which
holds the length of their list, and the one that has a field for the text, which holds the text. -/
theorem Statement.events_exact (s : Statement) (d : Dialect) :
    (s.events d).filter (fun e => e.level = .warn) =
        (s.warnings d).map (Event.noticed d.name) ∧
      (∃ before, s.events d = before ++
          [.compiled s.verb d.name (s.compile d).parameters.length,
            .rendered (s.compile d).sql] ∧
        ∀ e ∈ before, e.IsNotice) ∧
      (∃ e, (s.events d).filter (Event.hasField "params") = [e] ∧ e.level = .debug ∧
        e.fields.lookup "params" = some (.ofNat (s.compile d).parameters.length)) ∧
      ∃ e, (s.events d).filter (fun e => e.level = .trace) = [e] ∧
        (s.events d).filter (Event.hasField "sql") = [e] ∧
        e.fields.lookup "sql" = some (.string (s.compile d).sql) := by
  have hevents : s.events d = (Piece.notices (s.pieces d)).map (Event.noticed d.name) ++
      [.compiled s.verb d.name (s.compile d).parameters.length, .rendered (s.compile d).sql] := rfl
  -- A notice has no field but the dialect, and never the severity of a trace.
  have hfield : ∀ name, name ≠ "dialect" → ∀ ns : List Notice,
      (ns.map (Event.noticed d.name)).filter (Event.hasField name) = [] := by
    intro name hname ns
    rw [List.filter_eq_nil_iff]
    refine List.forall_mem_map.2 fun n _ => ?_
    simp [Event.hasField, Event.fields, List.lookup_cons, beq_eq_false_iff_ne.2 hname]
  have htrace : ∀ ns : List Notice,
      (ns.map (Event.noticed d.name)).filter (fun e => e.level = .trace) = [] := by
    intro ns
    rw [List.filter_eq_nil_iff]
    refine List.forall_mem_map.2 fun n _ => ?_
    cases n <;> simp [Event.level, Notice.level]
  refine ⟨?_, ⟨_, hevents, ?_⟩, ⟨.compiled s.verb d.name _, ?_, rfl, rfl⟩,
    ⟨.rendered _, ?_, ?_, rfl⟩⟩
  · have hwarnings : ∀ ns : List Notice, (ns.map (Event.noticed d.name)).filter
        (fun e => e.level = .warn) =
        (ns.filter fun n => n.level = .warn).map (Event.noticed d.name) := fun ns => by
      rw [List.filter_map]
      rfl
    rw [hevents, List.filter_append, hwarnings, Piece.filter_notices, s.warnings_pieces]
    exact List.append_nil _
  · exact List.forall_mem_map.2 fun n _ => ⟨_, n, rfl⟩
  · rw [hevents, List.filter_append, hfield _ (by decide)]
    rfl
  · rw [hevents, List.filter_append, htrace]
    rfl
  · rw [hevents, List.filter_append, hfield _ (by decide)]
    rfl

/-- The goods, first those that are cheaper than all orders; it may be unknown whether they are. -/
def goodsByCheapness : Select :=
  { Select.ofTable goods with
    orderBy :=
      [⟨.quantified (.column price) .lt .all (Select.ofTable orders), .descending, some .last⟩] }

-- Without placements of NULL, the comparison is written twice.
example :
    ((Statement.select goodsByCheapness).events
        { Dialect.sqlite with supportsNullPlacement := false }).filter (fun e => e.level = .warn) =
      [.noticed "sqlite" (.quantifiedUnsupported .lt .all),
        .noticed "sqlite" (.quantifiedUnsupported .lt .all)] := by
  decide

end TypedSql
