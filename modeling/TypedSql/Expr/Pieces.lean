import TypedSql.Expr.Basic
import TypedSql.Piece

/-!
# Pieces of expressions and selects

`Expr.pieces` lays out an expression for a dialect. Columns are qualified or not as the innermost
select around them decides, and each select decides for itself. An operand stands in parentheses
unless it is a column, a literal or a call; a condition in a chain does so if it is a chain itself;
arguments and list items never do. What a dialect lacks is expressed by what it has:

* a match that ignores case compares lower-cased operands;
* `= ANY` and `!= ALL` are `IN` and `NOT IN`;
* a placement of NULL sorts on the test for NULL first;
* membership in an empty list and an empty chain are truth values in every dialect.
-/

namespace TypedSql

/-- A column, with its qualifier if that is asked for. -/
def Column.pieces (qualify : Bool) (c : Column) : List Piece :=
  if qualify then [.identifier c.qualifier, .text ".", .identifier c.name]
  else [.identifier c.name]

/-- The name of a table, in its schema if it has one. -/
def Table.namePieces (t : Table) : List Piece :=
  match t.ref.schema? with
  | some schema => [.identifier schema, .text ".", .identifier t.ref.name]
  | none => [.identifier t.ref.name]

/-- A table as a source of rows, under its alias if it has one. -/
def Table.sourcePieces (t : Table) : List Piece :=
  t.namePieces ++
    match t.ref.alias? with
    | some name => [.text " AS ", .identifier name]
    | none => []

/-- A call of a function with some arguments. -/
def callPieces (d : Dialect) (f : SqlFunction) (arguments : List Piece) : List Piece :=
  .text (d.functionName f) :: .text "(" :: arguments ++ [.text ")"]

/-- The opening of a membership test. -/
def membershipText (negated : Bool) : String :=
  if negated then " NOT IN (" else " IN ("

/-- A pattern match, by lower-cased operands if the dialect cannot ignore case itself. -/
def PatternMatch.pieces (d : Dialect) (m : PatternMatch) (left right : Expr)
    (leftPieces rightPieces : List Piece) : List Piece :=
  if m.ignoresCase && !d.supportsIlike then
    .notice .ilikeEmulated :: .text "LOWER(" :: leftPieces ++
      .text (if m.negated then ") NOT LIKE LOWER(" else ") LIKE LOWER(") :: rightPieces ++
      [.text ")"]
  else
    Piece.enclosedIf (!left.isAtomic) leftPieces ++ .text (" " ++ m.sql ++ " ") ::
      Piece.enclosedIf (!right.isAtomic) rightPieces

/-- A binary operator between two operands. -/
def BinaryOp.pieces (d : Dialect) (op : BinaryOp) (left right : Expr)
    (leftPieces rightPieces : List Piece) : List Piece :=
  match op with
  | .pattern m => m.pieces d left right leftPieces rightPieces
  | _ =>
    Piece.enclosedIf (!left.isAtomic) leftPieces ++ .text (" " ++ op.sql ++ " ") ::
      Piece.enclosedIf (!right.isAtomic) rightPieces

/-- The opening of a quantified comparison. -/
def Quantifier.opening (d : Dialect) (op : Comparison) (quantifier : Quantifier) : List Piece :=
  let written := Piece.text (" " ++ op.sql ++ " " ++ quantifier.sql ++ " (")
  if d.supportsQuantified then [written]
  else
    match op, quantifier with
    | .eq, .any => [.text (membershipText false)]
    | .notEq, .all => [.text (membershipText true)]
    | _, _ => [.notice (.quantifiedUnsupported op quantifier), written]

/-- A sort key of an expression that is laid out already. -/
def sortKeyPieces (d : Dialect) (e : Expr) (direction : Direction) (nulls? : Option NullPlacement)
    (exprPieces : List Piece) : List Piece :=
  let sorted := exprPieces ++ [.text (" " ++ direction.sql)]
  match nulls? with
  | none => sorted
  | some nulls =>
    if d.supportsNullPlacement then
      sorted ++ [.text (" " ++ nulls.sql)]
    else
      .notice .nullPlacementEmulated :: Piece.enclosedIf (!e.isAtomic) exprPieces ++
        .text (match nulls with | .first => " IS NULL DESC, " | .last => " IS NULL ASC, ") :: sorted

/-- The clause of some sort keys. -/
def orderPieces (keys : List (List Piece)) : List Piece :=
  if keys.isEmpty then [] else .text " ORDER BY " :: Piece.commaSeparated keys

/-- The clauses of a limit and an offset; some dialects need a limit for every offset. -/
def pagePieces (d : Dialect) (limit? offset? : Option Nat) : List Piece :=
  let limit :=
    match limit?, offset? with
    | some n, _ => [Piece.text (" LIMIT " ++ toString n)]
    | none, some _ => (d.unboundedLimit?.map fun s => Piece.text (" LIMIT " ++ s)).toList
    | none, none => []
  limit ++ (offset?.map fun n => Piece.text (" OFFSET " ++ toString n)).toList

/-- A clause of a keyword and what follows it, if anything does. -/
def clausePieces (keyword : String) (pieces? : Option (List Piece)) : List Piece :=
  match pieces? with
  | some ps => .text keyword :: ps
  | none => []

/-- The result columns of a select, which are all columns of its first table if it lists none. -/
def resultColumns (qualify : Bool) (source : Table) (projections : List (List Piece)) :
    List (List Piece) :=
  if projections.isEmpty then source.columns.map (Column.pieces qualify) else projections

mutual

/-- The pieces of an expression. -/
def Expr.pieces (d : Dialect) (qualify : Bool) : Expr → List Piece
  | .column c => c.pieces qualify
  | .literal v _ => [.parameter v]
  | .negation e => .text "-" :: Piece.enclosedIf (!e.isAtomic) (e.pieces d qualify)
  | .complement e => .text "NOT (" :: e.pieces d qualify ++ [.text ")"]
  | .nullTest e negated =>
    Piece.enclosedIf (!e.isAtomic) (e.pieces d qualify) ++
      [.text (if negated then " IS NOT NULL" else " IS NULL")]
  | .binary l op r => op.pieces d l r (l.pieces d qualify) (r.pieces d qualify)
  | .junction kind parts =>
    if parts.isEmpty then [.text (d.booleanLiteral kind.unit)]
    else Piece.separated (" " ++ kind.sql ++ " ") (partPieces d qualify parts)
  | .rowCount => callPieces d .count [.text "*"]
  | .valueCount distinct e =>
    callPieces d .count ((if distinct then [.text "DISTINCT "] else []) ++ e.pieces d qualify)
  | .apply f e => callPieces d f.function (e.pieces d qualify)
  | .orElse e fallback =>
    callPieces d .coalesce (Piece.commaSeparated [e.pieces d qualify, fallback.pieces d qualify])
  | .extremum f first second rest =>
    callPieces d f.function (Piece.commaSeparated
      (first.pieces d qualify :: second.pieces d qualify :: itemPieces d qualify rest))
  | .joinedText e separator =>
    callPieces d .stringAgg
      (if d.separatorClause then
        e.pieces d qualify ++ [.text " SEPARATOR ", .quotedText separator]
      else
        Piece.commaSeparated [e.pieces d qualify, [.parameter (.text separator)]])
  | .listMembership e items negated =>
    if items.isEmpty then [.text (d.booleanLiteral negated)]
    else
      Piece.enclosedIf (!e.isAtomic) (e.pieces d qualify) ++ .text (membershipText negated) ::
        Piece.commaSeparated (itemPieces d qualify items) ++ [.text ")"]
  | .rowMembership e query negated =>
    Piece.enclosedIf (!e.isAtomic) (e.pieces d qualify) ++ .text (membershipText negated) ::
      query.pieces d ++ [.text ")"]
  | .range e low high negated =>
    Piece.enclosedIf (!e.isAtomic) (e.pieces d qualify) ++
      .text (if negated then " NOT BETWEEN " else " BETWEEN ") ::
      Piece.enclosedIf (!low.isAtomic) (low.pieces d qualify) ++ .text " AND " ::
      Piece.enclosedIf (!high.isAtomic) (high.pieces d qualify)
  | .existence query negated =>
    .text (if negated then "NOT EXISTS (" else "EXISTS (") :: query.pieces d ++ [.text ")"]
  | .quantified e op quantifier query =>
    Piece.enclosedIf (!e.isAtomic) (e.pieces d qualify) ++ quantifier.opening d op ++
      query.pieces d ++ [.text ")"]

/-- The pieces of expressions that stand between commas. -/
def itemPieces (d : Dialect) (qualify : Bool) : List Expr → List (List Piece)
  | [] => []
  | e :: es => e.pieces d qualify :: itemPieces d qualify es

/-- The pieces of conditions that stand in a chain. -/
def partPieces (d : Dialect) (qualify : Bool) : List Expr → List (List Piece)
  | [] => []
  | e :: es => Piece.enclosedIf e.isJunction (e.pieces d qualify) :: partPieces d qualify es

/-- The pieces of a condition that may be missing. -/
def conditionPieces (d : Dialect) (qualify : Bool) : Option Expr → Option (List Piece)
  | none => none
  | some e => some (e.pieces d qualify)

/-- The pieces of result columns. -/
def projectionPieces (d : Dialect) (qualify : Bool) : List Projection → List (List Piece)
  | [] => []
  | ⟨e, none⟩ :: ps => e.pieces d qualify :: projectionPieces d qualify ps
  | ⟨e, some name⟩ :: ps =>
    (e.pieces d qualify ++ [.text " AS ", .identifier name]) :: projectionPieces d qualify ps

/-- The pieces of joins. -/
def joinPieces (d : Dialect) (qualify : Bool) : List Join → List Piece
  | [] => []
  | .on kind t condition :: js =>
    .text (" " ++ kind.sql ++ " ") :: t.sourcePieces ++ .text " ON " ::
      condition.pieces d qualify ++ joinPieces d qualify js
  | .cross t :: js =>
    .text (" " ++ crossJoinSql ++ " ") :: t.sourcePieces ++ joinPieces d qualify js

/-- The pieces of sort keys. -/
def sortPieces (d : Dialect) (qualify : Bool) : List SortKey → List (List Piece)
  | [] => []
  | ⟨e, direction, nulls?⟩ :: ks =>
    sortKeyPieces d e direction nulls? (e.pieces d qualify) :: sortPieces d qualify ks

/-- The pieces of a select. -/
def Select.pieces (d : Dialect) : Select → List Piece
  | ⟨distinct, projections, source, correlated, joins, filter?, groupBy, having?, orderBy, limit?,
      offset?⟩ =>
    let qualify := !joins.isEmpty || !correlated.isEmpty
    .text "SELECT " :: (if distinct then [.text "DISTINCT "] else []) ++
      Piece.commaSeparated
        (resultColumns qualify source (projectionPieces d qualify projections)) ++
      .text " FROM " :: source.sourcePieces ++ joinPieces d qualify joins ++
      clausePieces " WHERE " (conditionPieces d qualify filter?) ++
      clausePieces " GROUP BY "
        (if groupBy.isEmpty then none
          else some (Piece.commaSeparated (groupBy.map (Column.pieces qualify)))) ++
      clausePieces " HAVING " (conditionPieces d qualify having?) ++
      orderPieces (sortPieces d qualify orderBy) ++ pagePieces d limit? offset?

end

/-- The pieces of a result column. -/
def Projection.pieces (d : Dialect) (qualify : Bool) (p : Projection) : List Piece :=
  p.expr.pieces d qualify ++
    match p.alias? with
    | some name => [.text " AS ", .identifier name]
    | none => []

/-- The pieces of a join. -/
def Join.pieces (d : Dialect) (qualify : Bool) : Join → List Piece
  | .on kind t condition =>
    .text (" " ++ kind.sql ++ " ") :: t.sourcePieces ++ .text " ON " :: condition.pieces d qualify
  | .cross t => .text (" " ++ crossJoinSql ++ " ") :: t.sourcePieces

/-- The pieces of a sort key. -/
def SortKey.pieces (d : Dialect) (qualify : Bool) (k : SortKey) : List Piece :=
  sortKeyPieces d k.expr k.direction k.nulls? (k.expr.pieces d qualify)

theorem itemPieces_eq (d : Dialect) (qualify : Bool) (es : List Expr) :
    itemPieces d qualify es = es.map (Expr.pieces d qualify) := by
  induction es with
  | nil => rfl
  | cons e es ih => simp [itemPieces, ih]

theorem partPieces_eq (d : Dialect) (qualify : Bool) (es : List Expr) :
    partPieces d qualify es =
      es.map fun e => Piece.enclosedIf e.isJunction (e.pieces d qualify) := by
  induction es with
  | nil => rfl
  | cons e es ih => simp [partPieces, ih]

theorem conditionPieces_eq (d : Dialect) (qualify : Bool) (e? : Option Expr) :
    conditionPieces d qualify e? = e?.map (Expr.pieces d qualify) := by
  cases e? <;> rfl

theorem projectionPieces_eq (d : Dialect) (qualify : Bool) (ps : List Projection) :
    projectionPieces d qualify ps = ps.map (Projection.pieces d qualify) := by
  induction ps with
  | nil => rfl
  | cons p ps ih =>
    obtain ⟨e, alias?⟩ := p
    cases alias? <;> simp [projectionPieces, Projection.pieces, ih]

theorem joinPieces_eq (d : Dialect) (qualify : Bool) (js : List Join) :
    joinPieces d qualify js = js.flatMap (Join.pieces d qualify) := by
  induction js with
  | nil => rfl
  | cons j js ih => cases j <;> simp [joinPieces, Join.pieces, ih]

theorem sortPieces_eq (d : Dialect) (qualify : Bool) (ks : List SortKey) :
    sortPieces d qualify ks = ks.map (SortKey.pieces d qualify) := by
  induction ks with
  | nil => rfl
  | cons k ks ih =>
    obtain ⟨e, direction, nulls?⟩ := k
    simp [sortPieces, SortKey.pieces, ih]

/-- A select is laid out clause by clause, each entry on its own. -/
theorem Select.pieces_eq (d : Dialect) (s : Select) :
    s.pieces d =
      .text "SELECT " :: (if s.distinct then [.text "DISTINCT "] else []) ++
        Piece.commaSeparated (resultColumns s.qualifies s.source
          (s.projections.map (Projection.pieces d s.qualifies))) ++
        .text " FROM " :: s.source.sourcePieces ++ s.joins.flatMap (Join.pieces d s.qualifies) ++
        clausePieces " WHERE " (s.filter?.map (Expr.pieces d s.qualifies)) ++
        clausePieces " GROUP BY "
          (if s.groupBy.isEmpty then none
            else some (Piece.commaSeparated (s.groupBy.map (Column.pieces s.qualifies)))) ++
        clausePieces " HAVING " (s.having?.map (Expr.pieces d s.qualifies)) ++
        orderPieces (s.orderBy.map (SortKey.pieces d s.qualifies)) ++
        pagePieces d s.limit? s.offset? := by
  cases s
  simp [pieces, qualifies, projectionPieces_eq, joinPieces_eq, conditionPieces_eq, sortPieces_eq]

end TypedSql
