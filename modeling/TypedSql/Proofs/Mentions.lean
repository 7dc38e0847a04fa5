import TypedSql.Proofs.PieceView
import TypedSql.Proofs.Scope

/-!
# Names that statements mention

`Statement.mentions` lists what the quoted names of a statement stand for, in the order in which
they are written: tables, output names, and references to columns with the scopes around them. A
select opens a scope for its tables; the condition of a join sees the tables before it and its own.
`identifiers_pieces` says that the names in the layout of an expression or a select are the names of
its mentions, so that no reference is missing from the list and none is written otherwise.
-/

namespace TypedSql

/-- What a quoted name, or a few of them, stand for. -/
inductive Mention
  /-- A table that is changed. -/
  | target (t : Table)
  /-- A table whose rows are read, with its alias. -/
  | source (t : Table)
  /-- The output name of a result column. -/
  | output (name : String)
  /-- A reference to a column. -/
  | reference (r : Reference)
  /-- A result column by which a compound select is ordered. -/
  | result (c : Column)

/-- The names of a column that are written. -/
def Column.names (qualify : Bool) (c : Column) : List String :=
  if qualify then [c.qualifier, c.name] else [c.name]

/-- The names of a table, in its schema if it has one. -/
def Table.names (t : Table) : List String :=
  t.ref.schema?.toList ++ [t.ref.name]

/-- The names that are written for a mention. -/
def Mention.names : Mention → List String
  | .target t => t.names
  | .source t => t.names ++ t.ref.alias?.toList
  | .output name => [name]
  | .reference r => r.column.names r.qualified
  | .result c => c.names false

/-- References to columns from some scopes. -/
def references (scopes : List (List Table)) (qualify : Bool) (cs : List Column) : List Mention :=
  cs.map fun c => .reference ⟨c, qualify, scopes⟩

mutual

/-- What an expression mentions, where sort keys with a placement of NULL may be written twice. -/
def Expr.mentions (separate : Bool) (scopes : List (List Table)) (qualify : Bool) :
    Expr → List Mention
  | .column c => references scopes qualify [c]
  | .literal _ _ | .rowCount => []
  | .negation e | .complement e | .nullTest e _ => e.mentions separate scopes qualify
  | .valueCount _ e | .apply _ e | .joinedText e _ => e.mentions separate scopes qualify
  | .binary l _ r =>
    l.mentions separate scopes qualify ++ r.mentions separate scopes qualify
  | .junction _ parts => mentionsOfAll separate scopes qualify parts
  | .orElse e fallback =>
    e.mentions separate scopes qualify ++ fallback.mentions separate scopes qualify
  | .extremum _ first second rest =>
    first.mentions separate scopes qualify ++ second.mentions separate scopes qualify ++
      mentionsOfAll separate scopes qualify rest
  | .listMembership _ [] _ => []
  | .listMembership e (item :: items) _ =>
    e.mentions separate scopes qualify ++ item.mentions separate scopes qualify ++
      mentionsOfAll separate scopes qualify items
  | .rowMembership e query _ | .quantified e _ _ query =>
    e.mentions separate scopes qualify ++ query.mentions separate scopes
  | .range e low high _ =>
    e.mentions separate scopes qualify ++ low.mentions separate scopes qualify ++
      high.mentions separate scopes qualify
  | .existence query _ => query.mentions separate scopes

/-- What some expressions mention in turn. -/
def mentionsOfAll (separate : Bool) (scopes : List (List Table)) (qualify : Bool) :
    List Expr → List Mention
  | [] => []
  | e :: es => e.mentions separate scopes qualify ++ mentionsOfAll separate scopes qualify es

/-- What a clause that may be missing mentions. -/
def mentionsOfClause (separate : Bool) (scopes : List (List Table)) (qualify : Bool) :
    Option Expr → List Mention
  | none => []
  | some e => e.mentions separate scopes qualify

/-- What result columns mention in turn. -/
def mentionsOfProjections (separate : Bool) (scopes : List (List Table)) (qualify : Bool) :
    List Projection → List Mention
  | [] => []
  | ⟨e, alias?⟩ :: ps =>
    e.mentions separate scopes qualify ++ alias?.toList.map .output ++
      mentionsOfProjections separate scopes qualify ps

/-- What joins mention in turn; each condition sees the tables up to its own. -/
def mentionsOfJoins (separate : Bool) (outer : List (List Table)) (qualify : Bool)
    (seen : List Table) : List Join → List Mention
  | [] => []
  | .on _ t condition :: js =>
    .source t :: condition.mentions separate ((seen ++ [t]) :: outer) qualify ++
      mentionsOfJoins separate outer qualify (seen ++ [t]) js
  | .cross t :: js => .source t :: mentionsOfJoins separate outer qualify (seen ++ [t]) js

/-- What sort keys mention in turn. -/
def mentionsOfSortKeys (separate : Bool) (scopes : List (List Table)) (qualify : Bool) :
    List SortKey → List Mention
  | [] => []
  | ⟨e, _, nulls?⟩ :: ks =>
    Piece.keyView separate nulls? (e.mentions separate scopes qualify) ++
      mentionsOfSortKeys separate scopes qualify ks

/-- What a select mentions inside some scopes. -/
def Select.mentions (separate : Bool) (outer : List (List Table)) : Select → List Mention
  | ⟨_, projections, source, correlated, joins, filter?, groupBy, having?, orderBy, _, _⟩ =>
    let qualify := !joins.isEmpty || !correlated.isEmpty
    let scopes := (source :: joins.map Join.table) :: outer
    (if projections.isEmpty then references scopes qualify source.columns
      else mentionsOfProjections separate scopes qualify projections) ++
      .source source :: mentionsOfJoins separate outer qualify [source] joins ++
      mentionsOfClause separate scopes qualify filter? ++ references scopes qualify groupBy ++
      mentionsOfClause separate scopes qualify having? ++
      mentionsOfSortKeys separate scopes qualify orderBy

end

/-- What a result column mentions. -/
def Projection.mentions (separate : Bool) (scopes : List (List Table)) (qualify : Bool)
    (p : Projection) : List Mention :=
  p.expr.mentions separate scopes qualify ++ p.alias?.toList.map .output

/-- The tables that a select ranges over. -/
def Select.localTables (s : Select) : List Table :=
  s.source :: s.joins.map Join.table

variable {separate qualify : Bool} {scopes outer : List (List Table)}

theorem mentionsOfAll_eq (es : List Expr) :
    mentionsOfAll separate scopes qualify es =
      es.flatMap (Expr.mentions separate scopes qualify) := by
  induction es with
  | nil => rfl
  | cons e es ih => simp [mentionsOfAll, ih]

theorem mentionsOfClause_eq (e? : Option Expr) :
    mentionsOfClause separate scopes qualify e? =
      e?.toList.flatMap (Expr.mentions separate scopes qualify) := by
  cases e? <;> simp [mentionsOfClause]

theorem mentionsOfProjections_eq (ps : List Projection) :
    mentionsOfProjections separate scopes qualify ps =
      ps.flatMap (Projection.mentions separate scopes qualify) := by
  induction ps with
  | nil => rfl
  | cons p ps ih =>
    obtain ⟨e, alias?⟩ := p
    simp [mentionsOfProjections, Projection.mentions, ih]

theorem mentionsOfSortKeys_eq (ks : List SortKey) :
    mentionsOfSortKeys separate scopes qualify ks =
      ks.flatMap fun k =>
        Piece.keyView separate k.nulls? (k.expr.mentions separate scopes qualify) := by
  induction ks with
  | nil => rfl
  | cons k ks ih =>
    obtain ⟨e, direction, nulls?⟩ := k
    simp [mentionsOfSortKeys, ih]

theorem Select.mentions_eq (s : Select) :
    s.mentions separate outer =
      (if s.projections.isEmpty then
          references (s.localTables :: outer) s.qualifies s.source.columns
        else s.projections.flatMap
          (Projection.mentions separate (s.localTables :: outer) s.qualifies)) ++
        .source s.source :: mentionsOfJoins separate outer s.qualifies [s.source] s.joins ++
        s.filter?.toList.flatMap (Expr.mentions separate (s.localTables :: outer) s.qualifies) ++
        references (s.localTables :: outer) s.qualifies s.groupBy ++
        s.having?.toList.flatMap (Expr.mentions separate (s.localTables :: outer) s.qualifies) ++
        s.orderBy.flatMap fun k => Piece.keyView separate k.nulls?
          (k.expr.mentions separate (s.localTables :: outer) s.qualifies) := by
  cases s
  simp [Select.mentions, Select.localTables, Select.qualifies, mentionsOfProjections_eq,
    mentionsOfClause_eq, mentionsOfSortKeys_eq]

/-- An expression mentions its column, or what its parts and its subquery mention. -/
theorem Expr.mem_mentions {e : Expr} {m : Mention} (h : m ∈ e.mentions separate scopes qualify) :
    (∃ c, e = .column c ∧ m = .reference ⟨c, qualify, scopes⟩) ∨
      (∃ x ∈ e.children, m ∈ x.mentions separate scopes qualify) ∨
      ∃ s, e.query? = some s ∧ m ∈ s.mentions separate scopes := by
  cases e with
  | column c => exact .inl ⟨c, rfl, by simpa [Expr.mentions, references] using h⟩
  | literal v type? => simp [Expr.mentions] at h
  | rowCount => simp [Expr.mentions] at h
  | listMembership e items negated =>
    cases items with
    | nil => simp [Expr.mentions] at h
    | cons item items =>
      simp only [Expr.mentions, mentionsOfAll_eq, List.mem_append, List.mem_flatMap] at h
      simpa [Expr.children, Expr.query?, or_assoc] using h
  | _ =>
    simp only [Expr.mentions, mentionsOfAll_eq, List.mem_append, List.mem_flatMap] at h
    simpa [Expr.children, Expr.query?, or_assoc] using h

/-- A join mentions its table, or what its condition mentions with the tables before it in sight. -/
theorem reference_mem_mentionsOfJoins {r : Reference} {seen : List Table} {js : List Join}
    (h : .reference r ∈ mentionsOfJoins separate outer qualify seen js) :
    ∃ pre j post, js = pre ++ j :: post ∧ ∃ e ∈ j.condition?.toList, .reference r ∈
      e.mentions separate ((seen ++ (pre ++ [j]).map Join.table) :: outer) qualify := by
  induction js generalizing seen with
  | nil => simp [mentionsOfJoins] at h
  | cons j js ih =>
    have hlater : .reference r ∈ mentionsOfJoins separate outer qualify (seen ++ [j.table]) js →
        ∃ pre k post, j :: js = pre ++ k :: post ∧ ∃ e ∈ k.condition?.toList, .reference r ∈
          e.mentions separate ((seen ++ (pre ++ [k]).map Join.table) :: outer) qualify := by
      intro h
      obtain ⟨pre, k, post, rfl, e, he, hmem⟩ := ih h
      exact ⟨j :: pre, k, post, rfl, e, he, by simpa using hmem⟩
    cases j with
    | on kind t condition =>
      simp only [mentionsOfJoins, List.cons_append, List.mem_cons, List.mem_append, reduceCtorEq,
        false_or] at h
      rcases h with h | h
      · exact ⟨[], _, js, rfl, condition, by simp [Join.condition?], h⟩
      · exact hlater h
    | cross t =>
      simp only [mentionsOfJoins, List.mem_cons, reduceCtorEq, false_or] at h
      exact hlater h

/-! ### The names in a layout are those of the mentions -/

theorem Column.identifiers_pieces (c : Column) :
    Piece.identifiers (c.pieces qualify) = c.names qualify := by
  cases qualify <;> rfl

theorem names_references (cs : List Column) :
    (references scopes qualify cs).flatMap Mention.names =
      cs.flatMap fun c => (c.pieces qualify).filterMap Piece.identifier? := by
  rw [references, List.flatMap_map]
  exact List.flatMap_congr fun c _ => c.identifiers_pieces.symm

theorem Table.identifiers_namePieces (t : Table) : Piece.identifiers t.namePieces = t.names := by
  obtain ⟨⟨schema?, name, alias?⟩, _, _, _, _⟩ := t
  cases schema? <;> rfl

theorem Table.identifiers_sourcePieces (t : Table) :
    Piece.identifiers t.sourcePieces = (Mention.source t).names := by
  obtain ⟨⟨schema?, name, alias?⟩, _, _, _, _⟩ := t
  cases schema? <;> cases alias? <;> rfl

theorem names_keyView (nulls? : Option NullPlacement) (ms : List Mention) :
    (Piece.keyView separate nulls? ms).flatMap Mention.names =
      Piece.keyView separate nulls? (ms.flatMap Mention.names) := by
  unfold Piece.keyView
  split
  · rw [List.flatMap_append]
  · rfl

section Names

variable {d : Dialect}

/-- The names of an expression are put together from those of its parts. -/
theorem Expr.names_mentions (e : Expr) :
    (e.mentions separate scopes qualify).flatMap Mention.names =
      e.assembled d Piece.identifier? qualify
        (fun x => (x.mentions separate scopes qualify).flatMap Mention.names)
        (fun s => (s.mentions separate scopes).flatMap Mention.names) := by
  cases e with
  | column c => simp [Expr.mentions, Expr.assembled, names_references]
  | junction kind parts =>
    simp [Expr.mentions, Expr.assembled, Expr.children, Expr.query?, mentionsOfAll_eq,
      List.flatMap_assoc]
  | extremum f first second rest =>
    simp [Expr.mentions, Expr.assembled, Expr.children, Expr.query?, mentionsOfAll_eq,
      List.flatMap_assoc]
  | joinedText e separator =>
    cases h : d.separatorClause <;>
      simp [Expr.mentions, Expr.assembled, h, Piece.identifier?]
  | listMembership e items negated =>
    cases items <;>
      simp [Expr.mentions, Expr.assembled, Expr.children, Expr.query?, mentionsOfAll_eq,
        List.flatMap_assoc]
  | literal v type? => rfl
  | rowCount => rfl
  | _ => simp [Expr.mentions, Expr.assembled, Expr.children, Expr.query?]

/-- The names of joins, if those of their conditions are right. -/
theorem names_mentionsOfJoins (js : List Join)
    (h : ∀ j ∈ js, ∀ e ∈ j.condition?.toList, ∀ scopes,
      (e.mentions separate scopes qualify).flatMap Mention.names =
        Piece.identifiers (e.pieces d qualify)) (seen : List Table) :
    (mentionsOfJoins separate outer qualify seen js).flatMap Mention.names =
      js.flatMap fun j => (j.pieces d qualify).filterMap Piece.identifier? := by
  induction js generalizing seen with
  | nil => rfl
  | cons j js ih =>
    have hrest := ih (fun j hj => h j (List.mem_cons_of_mem _ hj))
    cases j with
    | on kind t condition =>
      have hcondition := h _ (List.mem_cons_self ..) condition (by simp [Join.condition?])
      simp only [mentionsOfJoins, List.flatMap_append, List.flatMap_cons, hrest, hcondition,
        Join.pieces, ← t.identifiers_sourcePieces]
      simp [Piece.identifiers, Piece.view_text_cons Piece.identifier?_ignoresText]
    | cross t =>
      simp only [mentionsOfJoins, List.flatMap_cons, hrest, Join.pieces,
        ← t.identifiers_sourcePieces]
      simp [Piece.identifiers, Piece.view_text_cons Piece.identifier?_ignoresText]

/-- The names of a result column, if those of its expression are right. -/
theorem Projection.names_mentions (p : Projection)
    (h : (p.expr.mentions separate scopes qualify).flatMap Mention.names =
      Piece.identifiers (p.expr.pieces d qualify)) :
    (p.mentions separate scopes qualify).flatMap Mention.names =
      (p.pieces d qualify).filterMap Piece.identifier? := by
  obtain ⟨e, alias?⟩ := p
  rw [Projection.mentions, List.flatMap_append, h]
  cases alias? with
  | none => simp [Projection.pieces, Piece.identifiers]
  | some name =>
    rw [Projection.pieces, List.filterMap_append]
    rfl

/-- The names of a select are right if those of its expressions are. -/
theorem Select.names_mentions (s : Select)
    (h : ∀ e ∈ s.clauseExprs, ∀ scopes qualify,
      (e.mentions (!d.supportsNullPlacement) scopes qualify).flatMap Mention.names =
        Piece.identifiers (e.pieces d qualify)) (outer : List (List Table)) :
    (s.mentions (!d.supportsNullPlacement) outer).flatMap Mention.names =
      Piece.identifiers (s.pieces d) := by
  obtain ⟨hprojections, hjoins, hfilter, hhaving, horder⟩ := s.forall_clauseExprs.1 h
  have hcolumns :
      (if s.projections.isEmpty then
          references (s.localTables :: outer) s.qualifies s.source.columns
        else s.projections.flatMap (Projection.mentions (!d.supportsNullPlacement)
          (s.localTables :: outer) s.qualifies)).flatMap Mention.names =
      (resultColumns s.qualifies s.source
        (s.projections.map (Projection.pieces d s.qualifies))).flatMap
          (List.filterMap Piece.identifier?) := by
    unfold resultColumns
    rw [List.isEmpty_map]
    split
    · rw [names_references, List.flatMap_map]
    · rw [List.flatMap_assoc, List.flatMap_map]
      exact List.flatMap_congr fun p hp => p.names_mentions (hprojections p hp _ _)
  have hclause : ∀ e? : Option Expr, (∀ e ∈ e?.toList, ∀ scopes qualify,
      (e.mentions (!d.supportsNullPlacement) scopes qualify).flatMap Mention.names =
        Piece.identifiers (e.pieces d qualify)) →
      (e?.toList.flatMap
        (Expr.mentions (!d.supportsNullPlacement) (s.localTables :: outer) s.qualifies)).flatMap
          Mention.names =
        e?.toList.flatMap fun e => (e.pieces d s.qualifies).filterMap Piece.identifier? := by
    intro e? he
    rw [List.flatMap_assoc]
    exact List.flatMap_congr fun e hmem => he e hmem _ _
  have hkeys : (s.orderBy.flatMap fun k => Piece.keyView (!d.supportsNullPlacement) k.nulls?
        (k.expr.mentions (!d.supportsNullPlacement) (s.localTables :: outer)
          s.qualifies)).flatMap Mention.names =
      s.orderBy.flatMap fun k => (k.pieces d s.qualifies).filterMap Piece.identifier? := by
    rw [List.flatMap_assoc]
    refine List.flatMap_congr fun k hk => ?_
    rw [names_keyView, horder k hk, SortKey.pieces, Piece.view_sortKeyPieces
      Piece.identifier?_ignoresText Piece.identifier?_ignoresNotices]
    rfl
  have hsource := s.source.identifiers_sourcePieces
  -- Both sides follow the clauses in the order in which they are written.
  rw [Select.mentions_eq, Piece.identifiers, Select.view_pieces Piece.identifier?_ignoresText]
  simp only [List.flatMap_append, List.flatMap_cons, hcolumns, ← hsource,
    names_mentionsOfJoins s.joins (fun j hj e he scopes => hjoins j hj e he scopes _),
    hclause _ hfilter, names_references, hclause _ hhaving, hkeys, Piece.identifiers,
    List.append_assoc]

theorem Expr.identifiers_pieces (e : Expr) :
    ∀ scopes qualify,
      (e.mentions (!d.supportsNullPlacement) scopes qualify).flatMap Mention.names =
        Piece.identifiers (e.pieces d qualify) :=
  Expr.induction
    (P := fun e => ∀ scopes qualify,
      (e.mentions (!d.supportsNullPlacement) scopes qualify).flatMap Mention.names =
        Piece.identifiers (e.pieces d qualify))
    (Q := fun s => ∀ outer,
      (s.mentions (!d.supportsNullPlacement) outer).flatMap Mention.names =
        Piece.identifiers (s.pieces d))
    (fun e parts query scopes qualify => by
      rw [e.names_mentions (d := d), Piece.identifiers, Expr.view_pieces
        Piece.identifier?_ignoresText Piece.identifier?_ignoresNotices]
      exact e.assembled_congr d Piece.identifier? qualify (fun c hc => parts c hc scopes qualify)
        fun s hs => query s hs scopes)
    Select.names_mentions e

/-- The names in the layout of a select are those of its mentions. -/
theorem Select.identifiers_pieces (s : Select) (outer : List (List Table)) :
    Piece.identifiers (s.pieces d) =
      (s.mentions (!d.supportsNullPlacement) outer).flatMap Mention.names :=
  (s.names_mentions (fun e _ => e.identifiers_pieces) outer).symm

end Names

/-! ### Statements -/

/-- What a compound select mentions: its members in order, then the result columns it is ordered
by. -/
def CompoundSelect.mentions (separate : Bool) (c : CompoundSelect) : List Mention :=
  c.members.flatMap (Select.mentions separate []) ++
    c.orderBy.flatMap fun k =>
      Piece.keyView separate k.nulls? (k.expr.column?.toList.map .result)

/-- What an insert mentions. Its values have no tables in sight. -/
def Insert.mentions (separate : Bool) (i : Insert) : List Mention :=
  .target i.table :: references [[i.table]] false i.columns ++
    i.rows.flatMap (fun row => row.flatMap (Expr.mentions separate [] false)) ++
    references [[i.table]] false i.returning

/-- What an update mentions. -/
def Update.mentions (separate : Bool) (u : Update) : List Mention :=
  .source u.table ::
    (u.assignments.flatMap fun a =>
      references [[u.table]] false [a.1] ++ a.2.mentions separate [[u.table]] false) ++
    u.filter?.toList.flatMap (Expr.mentions separate [[u.table]] false) ++
    references [[u.table]] false u.returning

/-- What a delete mentions. -/
def Delete.mentions (separate : Bool) (x : Delete) : List Mention :=
  .source x.table :: x.condition?.toList.flatMap (Expr.mentions separate [[x.table]] false) ++
    references [[x.table]] false x.returning

/-- What a statement mentions when it is written for a dialect. -/
def Statement.mentions (d : Dialect) : Statement → List Mention
  | .select s => s.mentions (!d.supportsNullPlacement) []
  | .compound c => c.mentions (!d.supportsNullPlacement)
  | .insert i _ => i.mentions (!d.supportsNullPlacement)
  | .update u _ => u.mentions (!d.supportsNullPlacement)
  | .delete x _ => x.mentions (!d.supportsNullPlacement)

/-- The sort keys of a compound select are columns. -/
def CompoundSelect.SortsByColumns (c : CompoundSelect) : Prop :=
  ∀ k ∈ c.orderBy, ∃ column, k.expr = .column column

section Statements

variable {d : Dialect}

theorem identifiers_filterPieces (table : Table) (e? : Option Expr) :
    Piece.identifiers (clausePieces " WHERE " (conditionPieces d false e?)) =
      (e?.toList.flatMap (Expr.mentions (!d.supportsNullPlacement) [[table]] false)).flatMap
        Mention.names := by
  cases e? with
  | none => rfl
  | some e =>
    rw [Option.toList_some, List.flatMap_singleton]
    exact (e.identifiers_pieces [[table]] false).symm

theorem identifiers_returningPieces (table : Table) (cs : List Column) :
    Piece.identifiers (returningPieces d cs) =
      (references [[table]] false cs).flatMap Mention.names := by
  rw [names_references]
  exact Piece.view_returningPieces Piece.identifier?_ignoresText
    Piece.identifier?_ignoresNotices d cs

theorem identifiers_text_cons (t : String) (ps : List Piece) :
    Piece.identifiers (.text t :: ps) = Piece.identifiers ps := rfl

theorem identifiers_commaSeparated (items : List (List Piece)) :
    Piece.identifiers (Piece.commaSeparated items) = items.flatMap Piece.identifiers :=
  Piece.view_commaSeparated Piece.identifier?_ignoresText items

theorem identifiers_append (ps qs : List Piece) :
    Piece.identifiers (ps ++ qs) = Piece.identifiers ps ++ Piece.identifiers qs :=
  List.filterMap_append

theorem CompoundSelect.identifiers_pieces (c : CompoundSelect) (h : c.SortsByColumns) :
    Piece.identifiers (c.pieces d) =
      (c.mentions (!d.supportsNullPlacement)).flatMap Mention.names := by
  have hmembers : Piece.identifiers (memberPieces d c.rest) =
      (c.rest.map Prod.snd).flatMap fun s =>
        (s.mentions (!d.supportsNullPlacement) []).flatMap Mention.names := by
    rw [memberPieces, Piece.identifiers, List.filterMap_flatMap, List.flatMap_map]
    exact List.flatMap_congr fun m _ => m.2.identifiers_pieces []
  have hkeys : Piece.identifiers (orderPieces (sortPieces d false c.orderBy)) =
      c.orderBy.flatMap fun k =>
        (Piece.keyView (!d.supportsNullPlacement) k.nulls?
          (k.expr.column?.toList.map Mention.result)).flatMap Mention.names := by
    rw [Piece.identifiers, Piece.view_orderPieces Piece.identifier?_ignoresText, sortPieces_eq,
      List.flatMap_map]
    refine List.flatMap_congr fun k hk => ?_
    obtain ⟨column, hcolumn⟩ := h k hk
    rw [names_keyView, SortKey.pieces, Piece.view_sortKeyPieces
      Piece.identifier?_ignoresText Piece.identifier?_ignoresNotices, hcolumn]
    rfl
  have hpage : Piece.identifiers (pagePieces d c.limit? c.offset?) = [] :=
    Piece.view_pagePieces Piece.identifier?_ignoresText d c.limit? c.offset?
  rw [CompoundSelect.pieces, identifiers_append, identifiers_append, identifiers_append,
    c.first.identifiers_pieces [], hmembers, hkeys, hpage]
  simp [CompoundSelect.mentions, CompoundSelect.members, List.flatMap_assoc]

theorem Insert.identifiers_pieces (i : Insert) :
    Piece.identifiers (i.pieces d) =
      (i.mentions (!d.supportsNullPlacement)).flatMap Mention.names := by
  have hcolumns : Piece.identifiers
      (Piece.commaSeparated (i.columns.map (Column.pieces false))) =
        (references [[i.table]] false i.columns).flatMap Mention.names := by
    rw [identifiers_commaSeparated, names_references, List.flatMap_map]
    rfl
  have hrows : Piece.identifiers (Piece.commaSeparated (i.rows.map (rowPieces d))) =
      (i.rows.flatMap fun row =>
        row.flatMap (Expr.mentions (!d.supportsNullPlacement) [] false)).flatMap Mention.names := by
    rw [identifiers_commaSeparated, List.flatMap_assoc, List.flatMap_map]
    refine List.flatMap_congr fun row _ => ?_
    rw [rowPieces, Piece.identifiers, Piece.view_parenthesized Piece.identifier?_ignoresText,
      Piece.view_commaSeparated Piece.identifier?_ignoresText, itemPieces_eq, List.flatMap_map,
      List.flatMap_assoc]
    exact List.flatMap_congr fun e _ => (e.identifiers_pieces [] false).symm
  simp only [Insert.pieces, List.cons_append, identifiers_text_cons, identifiers_append,
    i.table.identifiers_namePieces, hcolumns, hrows, identifiers_returningPieces i.table,
    Insert.mentions, List.flatMap_cons, List.flatMap_append, List.append_assoc, Mention.names]

theorem Update.identifiers_pieces (u : Update) :
    Piece.identifiers (u.pieces d) =
      (u.mentions (!d.supportsNullPlacement)).flatMap Mention.names := by
  have hassignments : Piece.identifiers
      (Piece.commaSeparated (u.assignments.map (assignmentPieces d))) =
        (u.assignments.flatMap fun a => references [[u.table]] false [a.1] ++
          a.2.mentions (!d.supportsNullPlacement) [[u.table]] false).flatMap Mention.names := by
    rw [identifiers_commaSeparated, List.flatMap_assoc, List.flatMap_map]
    refine List.flatMap_congr fun a _ => ?_
    rw [assignmentPieces, identifiers_append, identifiers_text_cons, List.flatMap_append,
      names_references, a.2.identifiers_pieces, List.flatMap_singleton]
    rfl
  simp only [Update.pieces, List.cons_append, identifiers_text_cons, identifiers_append,
    u.table.identifiers_sourcePieces, hassignments, identifiers_filterPieces u.table,
    identifiers_returningPieces u.table, Update.mentions, List.flatMap_cons, List.flatMap_append,
    List.append_assoc]

theorem Delete.identifiers_pieces (x : Delete) :
    Piece.identifiers (x.pieces d) =
      (x.mentions (!d.supportsNullPlacement)).flatMap Mention.names := by
  simp only [Delete.pieces, List.cons_append, identifiers_text_cons, identifiers_append,
    x.table.identifiers_sourcePieces, identifiers_filterPieces x.table,
    identifiers_returningPieces x.table, Delete.mentions, List.flatMap_cons, List.flatMap_append,
    List.append_assoc]

end Statements

end TypedSql
