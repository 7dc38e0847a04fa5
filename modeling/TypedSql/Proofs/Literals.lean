import TypedSql.Compiled
import TypedSql.Expr.Induction
import TypedSql.Proofs.PieceView

/-!
# Literals of statements

`Statement.literals` walks over the literals of a statement, left to right and clause by clause, and
a subquery where it stands. It departs from visiting every literal once in three places:

* membership in an empty list contributes nothing, not even its subject;
* the literals of a sort key with a placement of NULL come twice, where such keys are written twice;
* the separator of a text aggregate contributes nothing, where it is written into the text.

The last two are choices of the dialect, its `BindingRule`. The main statement is
`compile_parameters`: the parameters of a compiled statement are its literals, so that they depend
on the dialect only through these two choices.
-/

namespace TypedSql

/-- The choices of a dialect that decide which literals are bound, and how often. -/
structure BindingRule where
  /-- A sort key with a placement of NULL is written twice. -/
  repeatsPlacedKeys : Bool
  /-- The separator of a text aggregate is written into the text. -/
  inlinesSeparators : Bool
  deriving DecidableEq

/-- The binding rule of a dialect. -/
def Dialect.bindingRule (d : Dialect) : BindingRule :=
  ⟨!d.supportsNullPlacement, d.separatorClause⟩

mutual

/-- The values of the literals of an expression. -/
def Expr.literals (rule : BindingRule) : Expr → List Value
  | .column _ => []
  | .literal v _ => [v]
  | .negation e | .complement e | .nullTest e _ => e.literals rule
  | .binary l _ r => l.literals rule ++ r.literals rule
  | .junction _ parts => literalsOfAll rule parts
  | .rowCount => []
  | .valueCount _ e | .apply _ e => e.literals rule
  | .orElse e fallback => e.literals rule ++ fallback.literals rule
  | .extremum _ first second rest =>
    first.literals rule ++ second.literals rule ++ literalsOfAll rule rest
  | .joinedText e separator =>
    e.literals rule ++ if rule.inlinesSeparators then [] else [.text separator]
  | .listMembership _ [] _ => []
  | .listMembership e (item :: items) _ =>
    e.literals rule ++ item.literals rule ++ literalsOfAll rule items
  | .rowMembership e query _ => e.literals rule ++ query.literals rule
  | .range e low high _ => e.literals rule ++ low.literals rule ++ high.literals rule
  | .existence query _ => query.literals rule
  | .quantified e _ _ query => e.literals rule ++ query.literals rule

/-- The values of the literals of some expressions in turn. -/
def literalsOfAll (rule : BindingRule) : List Expr → List Value
  | [] => []
  | e :: es => e.literals rule ++ literalsOfAll rule es

/-- The values of the literals of a clause that may be missing. -/
def literalsOfClause (rule : BindingRule) : Option Expr → List Value
  | none => []
  | some e => e.literals rule

/-- The values of the literals of result columns in turn. -/
def literalsOfProjections (rule : BindingRule) : List Projection → List Value
  | [] => []
  | ⟨e, _⟩ :: ps => e.literals rule ++ literalsOfProjections rule ps

/-- The values of the literals of join conditions in turn. -/
def literalsOfJoins (rule : BindingRule) : List Join → List Value
  | [] => []
  | .on _ _ condition :: js => condition.literals rule ++ literalsOfJoins rule js
  | .cross _ :: js => literalsOfJoins rule js

/-- The values of the literals of sort keys in turn. -/
def literalsOfSortKeys (rule : BindingRule) : List SortKey → List Value
  | [] => []
  | ⟨e, _, nulls?⟩ :: ks =>
    Piece.keyView rule.repeatsPlacedKeys nulls? (e.literals rule) ++ literalsOfSortKeys rule ks

/-- The values of the literals of a select: result columns, join conditions, `WHERE`, `HAVING`,
`ORDER BY`. -/
def Select.literals (rule : BindingRule) : Select → List Value
  | ⟨_, projections, _, _, joins, filter?, _, having?, orderBy, _, _⟩ =>
    literalsOfProjections rule projections ++ literalsOfJoins rule joins ++
      literalsOfClause rule filter? ++ literalsOfClause rule having? ++
      literalsOfSortKeys rule orderBy

end

/-- The values of the literals of a compound select: its members in order, then `ORDER BY`. -/
def CompoundSelect.literals (rule : BindingRule) (c : CompoundSelect) : List Value :=
  c.members.flatMap (Select.literals rule) ++ literalsOfSortKeys rule c.orderBy

/-- The values of the literals of an insert, row by row and each row in the order of the columns. -/
def Insert.literals (rule : BindingRule) (i : Insert) : List Value :=
  i.rows.flatMap fun row => row.flatMap (Expr.literals rule)

/-- The values of the literals of an update: its assignments in order, then `WHERE`. -/
def Update.literals (rule : BindingRule) (u : Update) : List Value :=
  u.assignments.flatMap (fun a => a.2.literals rule) ++ literalsOfClause rule u.filter?

/-- The values of the literals of the condition of a delete. -/
def Delete.literals (rule : BindingRule) (x : Delete) : List Value :=
  literalsOfClause rule x.condition?

/-- The values of the literals of a statement. -/
def Statement.literals (rule : BindingRule) : Statement → List Value
  | .select s => s.literals rule
  | .compound c => c.literals rule
  | .insert i _ => i.literals rule
  | .update u _ => u.literals rule
  | .delete x _ => x.literals rule

variable {rule : BindingRule}

theorem literalsOfAll_eq (es : List Expr) :
    literalsOfAll rule es = es.flatMap (Expr.literals rule) := by
  induction es with
  | nil => rfl
  | cons e es ih => simp [literalsOfAll, ih]

theorem literalsOfClause_eq (e? : Option Expr) :
    literalsOfClause rule e? = e?.toList.flatMap (Expr.literals rule) := by
  cases e? <;> simp [literalsOfClause]

theorem literalsOfProjections_eq (ps : List Projection) :
    literalsOfProjections rule ps = ps.flatMap fun p => p.expr.literals rule := by
  induction ps with
  | nil => rfl
  | cons p ps ih =>
    obtain ⟨e, alias?⟩ := p
    simp [literalsOfProjections, ih]

theorem literalsOfJoins_eq (js : List Join) :
    literalsOfJoins rule js = js.flatMap fun j => literalsOfClause rule j.condition? := by
  induction js with
  | nil => rfl
  | cons j js ih =>
    cases j <;> simp [literalsOfJoins, literalsOfClause, Join.condition?, ih]

theorem literalsOfSortKeys_eq (ks : List SortKey) :
    literalsOfSortKeys rule ks =
      ks.flatMap fun k => Piece.keyView rule.repeatsPlacedKeys k.nulls? (k.expr.literals rule) := by
  induction ks with
  | nil => rfl
  | cons k ks ih =>
    obtain ⟨e, direction, nulls?⟩ := k
    simp [literalsOfSortKeys, ih]

theorem Select.literals_eq (s : Select) :
    s.literals rule =
      (s.projections.flatMap fun p => p.expr.literals rule) ++
        (s.joins.flatMap fun j => j.condition?.toList.flatMap (Expr.literals rule)) ++
        s.filter?.toList.flatMap (Expr.literals rule) ++
        s.having?.toList.flatMap (Expr.literals rule) ++
        s.orderBy.flatMap fun k =>
          Piece.keyView rule.repeatsPlacedKeys k.nulls? (k.expr.literals rule) := by
  cases s
  simp [Select.literals, literalsOfProjections_eq, literalsOfJoins_eq, literalsOfClause_eq,
    literalsOfSortKeys_eq]

/-- The literals of an expression are those of its parts in order, then those of its subquery. -/
theorem Expr.literals_eq (d : Dialect) (qualify : Bool) (e : Expr) :
    e.literals d.bindingRule =
      e.assembled d Piece.parameter? qualify (Expr.literals d.bindingRule)
        (Select.literals d.bindingRule) := by
  cases e with
  | column c => cases qualify <;> rfl
  | junction kind parts =>
    simp [Expr.literals, Expr.assembled, Expr.children, Expr.query?, literalsOfAll_eq]
  | extremum f first second rest =>
    simp [Expr.literals, Expr.assembled, Expr.children, Expr.query?, literalsOfAll_eq]
  | joinedText e separator =>
    cases h : d.separatorClause <;>
      simp [Expr.literals, Expr.assembled, Dialect.bindingRule, h, Piece.parameter?]
  | listMembership e items negated =>
    cases items <;>
      simp [Expr.literals, Expr.assembled, Expr.children, Expr.query?, literalsOfAll_eq]
  | literal v type? => rfl
  | rowCount => rfl
  | _ => simp [Expr.literals, Expr.assembled, Expr.children, Expr.query?]

/-! ### Layouts bind the literals -/

section Parameters

variable {d : Dialect}

theorem Column.parameters_pieces (qualify : Bool) (c : Column) :
    Piece.parameters (c.pieces qualify) = [] :=
  c.view_pieces Piece.parameter?_ignoresText Piece.parameter?_ignoresNames qualify

theorem Table.parameters_sourcePieces (t : Table) : Piece.parameters t.sourcePieces = [] :=
  t.view_sourcePieces Piece.parameter?_ignoresText Piece.parameter?_ignoresNames

theorem Column.parameters_flatMap_pieces (qualify : Bool) (cs : List Column) :
    (cs.flatMap fun c => Piece.parameters (c.pieces qualify)) = [] :=
  Column.view_flatMap_pieces Piece.parameter?_ignoresText Piece.parameter?_ignoresNames qualify cs

theorem Piece.parameters_text_cons (t : String) (ps : List Piece) :
    parameters (.text t :: ps) = parameters ps := rfl

/-- A sort key binds what its expression binds, twice if its placement of NULL is emulated. -/
theorem SortKey.parameters_pieces (qualify : Bool) (k : SortKey) :
    Piece.parameters (k.pieces d qualify) =
      Piece.keyView d.bindingRule.repeatsPlacedKeys k.nulls?
        (Piece.parameters (k.expr.pieces d qualify)) :=
  Piece.view_sortKeyPieces Piece.parameter?_ignoresText Piece.parameter?_ignoresNotices ..

/-- A select binds what its clauses bind; columns and tables bind nothing. -/
theorem Select.parameters_pieces_clauses (s : Select) :
    Piece.parameters (s.pieces d) =
      (s.projections.flatMap fun p => Piece.parameters (p.expr.pieces d s.qualifies)) ++
        (s.joins.flatMap fun j =>
          j.condition?.toList.flatMap fun e => Piece.parameters (e.pieces d s.qualifies)) ++
        (s.filter?.toList.flatMap fun e => Piece.parameters (e.pieces d s.qualifies)) ++
        (s.having?.toList.flatMap fun e => Piece.parameters (e.pieces d s.qualifies)) ++
        s.orderBy.flatMap fun k =>
          Piece.keyView d.bindingRule.repeatsPlacedKeys k.nulls?
            (Piece.parameters (k.expr.pieces d s.qualifies)) :=
  s.view_pieces_clauses Piece.parameter?_ignoresText Piece.parameter?_ignoresNames
    Piece.parameter?_ignoresNotices

/-- A select binds the literals of its clauses if their expressions do. -/
theorem Select.parameters_pieces_of_clauses (s : Select)
    (h : ∀ e ∈ s.clauseExprs, ∀ qualify,
      Piece.parameters (e.pieces d qualify) = e.literals d.bindingRule) :
    Piece.parameters (s.pieces d) = s.literals d.bindingRule := by
  obtain ⟨hprojections, hjoins, hfilter, hhaving, hkeys⟩ :=
    s.forall_clauseExprs.1 fun e he => h e he s.qualifies
  have hkeys' : ∀ k ∈ s.orderBy,
      Piece.keyView d.bindingRule.repeatsPlacedKeys k.nulls?
          (Piece.parameters (k.expr.pieces d s.qualifies)) =
        Piece.keyView d.bindingRule.repeatsPlacedKeys k.nulls? (k.expr.literals d.bindingRule) :=
    fun k hk => by rw [hkeys k hk]
  rw [Select.parameters_pieces_clauses, Select.literals_eq, List.flatMap_congr hprojections,
    List.flatMap_congr fun j hj => List.flatMap_congr (hjoins j hj), List.flatMap_congr hfilter,
    List.flatMap_congr hhaving, List.flatMap_congr hkeys']

/-- Expressions bind their literals. -/
theorem Expr.parameters_pieces (e : Expr) (qualify : Bool) :
    Piece.parameters (e.pieces d qualify) = e.literals d.bindingRule := by
  refine Expr.induction
    (P := fun e => ∀ qualify, Piece.parameters (e.pieces d qualify) = e.literals d.bindingRule)
    (Q := fun s => Piece.parameters (s.pieces d) = s.literals d.bindingRule)
    (fun e parts query qualify => ?_) Select.parameters_pieces_of_clauses e qualify
  calc Piece.parameters (e.pieces d qualify)
      = e.assembled d Piece.parameter? qualify (fun c => Piece.parameters (c.pieces d qualify))
          (fun s => Piece.parameters (s.pieces d)) :=
        Expr.view_pieces Piece.parameter?_ignoresText Piece.parameter?_ignoresNotices e
    _ = e.assembled d Piece.parameter? qualify (Expr.literals d.bindingRule)
          (Select.literals d.bindingRule) :=
        Expr.assembled_congr _ _ _ e (fun c hc => parts c hc qualify) query
    _ = e.literals d.bindingRule := (Expr.literals_eq d qualify e).symm

/-- Selects bind their literals. -/
theorem Select.parameters_pieces (s : Select) :
    Piece.parameters (s.pieces d) = s.literals d.bindingRule :=
  s.parameters_pieces_of_clauses fun e _ => e.parameters_pieces

theorem parameters_orderPieces (qualify : Bool) (ks : List SortKey) :
    Piece.parameters (orderPieces (sortPieces d qualify ks)) =
      literalsOfSortKeys d.bindingRule ks := by
  have h : Piece.parameters (orderPieces (sortPieces d qualify ks)) =
      (sortPieces d qualify ks).flatMap Piece.parameters :=
    Piece.view_orderPieces Piece.parameter?_ignoresText _
  rw [h, sortPieces_eq, literalsOfSortKeys_eq, List.flatMap_map]
  simp [SortKey.parameters_pieces, Expr.parameters_pieces]

theorem parameters_filterPieces (e? : Option Expr) :
    Piece.parameters (clausePieces " WHERE " (conditionPieces d false e?)) =
      literalsOfClause d.bindingRule e? := by
  cases e? with
  | none => rfl
  | some e => exact e.parameters_pieces false

theorem parameters_pagePieces (limit? offset? : Option Nat) :
    Piece.parameters (pagePieces d limit? offset?) = [] :=
  Piece.view_pagePieces Piece.parameter?_ignoresText d limit? offset?

theorem parameters_returningPieces (columns : List Column) :
    Piece.parameters (returningPieces d columns) = [] := by
  have h : Piece.parameters (returningPieces d columns) =
      columns.flatMap fun c => Piece.parameters (c.pieces false) :=
    Piece.view_returningPieces Piece.parameter?_ignoresText Piece.parameter?_ignoresNotices d
      columns
  rw [h, Column.parameters_flatMap_pieces]

theorem parameters_commaSeparated (items : List (List Piece)) :
    Piece.parameters (Piece.commaSeparated items) = items.flatMap Piece.parameters :=
  Piece.view_commaSeparated Piece.parameter?_ignoresText items

theorem CompoundSelect.parameters_pieces (c : CompoundSelect) :
    Piece.parameters (c.pieces d) = c.literals d.bindingRule := by
  have hmembers : Piece.parameters (memberPieces d c.rest) =
      (c.rest.map Prod.snd).flatMap (Select.literals d.bindingRule) := by
    induction c.rest with
    | nil => rfl
    | cons m ms ih =>
      simp only [memberPieces] at ih
      simp [memberPieces, Piece.parameters_text_cons, Select.parameters_pieces, ih]
  simp [CompoundSelect.pieces, CompoundSelect.literals, CompoundSelect.members, hmembers,
    Select.parameters_pieces, parameters_orderPieces, parameters_pagePieces]

theorem Insert.parameters_pieces (i : Insert) :
    Piece.parameters (i.pieces d) = i.literals d.bindingRule := by
  have hname : Piece.parameters i.table.namePieces = [] := by
    unfold Table.namePieces
    split <;> rfl
  have hrow : ∀ row : List Expr,
      Piece.parameters (rowPieces d row) = row.flatMap (Expr.literals d.bindingRule) := by
    intro row
    have h : Piece.parameters (rowPieces d row) =
        Piece.parameters (Piece.commaSeparated (itemPieces d false row)) :=
      Piece.view_parenthesized Piece.parameter?_ignoresText _
    simp [h, parameters_commaSeparated, itemPieces_eq, List.flatMap_map, Expr.parameters_pieces]
  simp [Insert.pieces, Insert.literals, Piece.parameters_text_cons, hname, hrow,
    parameters_commaSeparated, List.flatMap_map, Column.parameters_flatMap_pieces,
    parameters_returningPieces]

theorem Update.parameters_pieces (u : Update) :
    Piece.parameters (u.pieces d) = u.literals d.bindingRule := by
  have hassignment : ∀ a : Column × Expr,
      Piece.parameters (assignmentPieces d a) = a.2.literals d.bindingRule := by
    intro a
    simp [assignmentPieces, Piece.parameters_text_cons, Column.parameters_pieces,
      Expr.parameters_pieces]
  simp [Update.pieces, Update.literals, Piece.parameters_text_cons, Table.parameters_sourcePieces,
    parameters_commaSeparated, List.flatMap_map, hassignment, parameters_filterPieces,
    parameters_returningPieces]

theorem Delete.parameters_pieces (x : Delete) :
    Piece.parameters (x.pieces d) = x.literals d.bindingRule := by
  simp [Delete.pieces, Delete.literals, Piece.parameters_text_cons, Table.parameters_sourcePieces,
    parameters_filterPieces, parameters_returningPieces]

end Parameters

/-- A statement binds its literals. -/
theorem Statement.parameters_pieces (d : Dialect) (s : Statement) :
    Piece.parameters (s.pieces d) = s.literals d.bindingRule := by
  cases s with
  | select s => exact s.parameters_pieces
  | compound c => exact c.parameters_pieces
  | insert i _ => exact i.parameters_pieces
  | update u _ => exact u.parameters_pieces
  | delete x _ => exact x.parameters_pieces

/-- **The parameters of a compiled statement are its literals**, so that two dialects that agree on
placements of NULL and on separators bind the same values. -/
theorem Statement.compile_parameters (d : Dialect) (s : Statement) :
    (s.compile d).parameters = s.literals d.bindingRule ∧
      ∀ d' : Dialect, d'.supportsNullPlacement = d.supportsNullPlacement →
        d'.separatorClause = d.separatorClause →
        (s.compile d').parameters = (s.compile d).parameters := by
  have h : ∀ d : Dialect, (s.compile d).parameters = s.literals d.bindingRule :=
    fun d => s.parameters_pieces d
  refine ⟨h d, fun d' hplacement hseparator => ?_⟩
  rw [h, h, Dialect.bindingRule, Dialect.bindingRule, hplacement, hseparator]

/-- A table whose one column holds prices. -/
def priced (ref : TableRef) : Table where
  ref
  decls := [⟨"price", .integer, true, none⟩]
  decls_ne_nil := by decide
  nodup_names := by decide
  hasSoundDefault := by
    rintro d (_ | ⟨_, ⟨⟩⟩) v ⟨⟩

/-- A table of goods with their prices. -/
def goods : Table :=
  priced ⟨none, "goods", none⟩

/-- A table of orders with their prices. -/
def orders : Table :=
  priced ⟨none, "orders", none⟩

/-- The price of goods. -/
def price : Column :=
  ⟨goods.ref, ⟨"price", .integer, true, none⟩⟩

/-- The price of goods against a number. -/
def priceAgainst (op : Comparison) (n : Int64) : Expr :=
  .binary (.column price) (.compare op) (.literal (.int n) (some .integer))

/-- The goods above a price, with a placement of those without one. -/
def goodsByPrice : Statement :=
  .select { Select.ofTable goods with
    filter? := some (.binary (.column price) (.compare .gt) (.literal (.int 5) none))
    orderBy :=
      [⟨.binary (.column price) (.arithmetic .add) (.literal (.int 1) none), .ascending,
        some .last⟩] }

theorem compile_parameters_goodsByPrice :
    Dialect.postgres.supportsNullPlacement = Dialect.sqlite.supportsNullPlacement ∧
      Dialect.postgres.separatorClause = Dialect.sqlite.separatorClause ∧
      (goodsByPrice.compile .postgres).parameters = (goodsByPrice.compile .sqlite).parameters ∧
      (goodsByPrice.compile .sqlite).parameters = [.int 5, .int 1] :=
  ⟨rfl, rfl, (goodsByPrice.compile_parameters .sqlite).2 .postgres rfl rfl,
    (goodsByPrice.compile_parameters .sqlite).1⟩

/-- A dialect that does not know placements of NULL writes the sort key twice. -/
example : (goodsByPrice.compile .mysql).parameters = [.int 5, .int 1, .int 1] := rfl

end TypedSql
