import TypedSql.Expr.Pieces
import TypedSql.Statement.Basic

/-!
# Pieces of statements

The layout of each kind of statement. The sort keys of a compound select name result columns and are
never qualified. Inserts, updates and deletes work on one table, so that their own columns need no
qualifier.
-/

namespace TypedSql

/-- The clause of the columns that a statement returns, if it returns any. -/
def returningPieces (d : Dialect) (columns : List Column) : List Piece :=
  if columns.isEmpty then []
  else
    (if d.supportsReturning then [] else [.notice .returningUnsupported]) ++
      .text " RETURNING " :: Piece.commaSeparated (columns.map (Column.pieces false))

/-- The pieces of the members after the first of a compound select. -/
def memberPieces (d : Dialect) (members : List (SetOperator × Select)) : List Piece :=
  members.flatMap fun m => .text (" " ++ m.1.sql ++ " ") :: m.2.pieces d

/-- The pieces of a compound select. -/
def CompoundSelect.pieces (d : Dialect) (c : CompoundSelect) : List Piece :=
  c.first.pieces d ++ memberPieces d c.rest ++ orderPieces (sortPieces d false c.orderBy) ++
    pagePieces d c.limit? c.offset?

/-- The pieces of a row of values. -/
def rowPieces (d : Dialect) (row : List Expr) : List Piece :=
  Piece.parenthesized (Piece.commaSeparated (itemPieces d false row))

/-- The pieces of an insert. -/
def Insert.pieces (d : Dialect) (i : Insert) : List Piece :=
  .text "INSERT INTO " :: i.table.namePieces ++ .text " (" ::
    Piece.commaSeparated (i.columns.map (Column.pieces false)) ++ .text ") VALUES " ::
    Piece.commaSeparated (i.rows.map (rowPieces d)) ++ returningPieces d i.returning

/-- The pieces of an assignment. -/
def assignmentPieces (d : Dialect) (assignment : Column × Expr) : List Piece :=
  assignment.1.pieces false ++ .text " = " :: assignment.2.pieces d false

/-- The pieces of an update. -/
def Update.pieces (d : Dialect) (u : Update) : List Piece :=
  .text "UPDATE " :: u.table.sourcePieces ++ .text " SET " ::
    Piece.commaSeparated (u.assignments.map (assignmentPieces d)) ++
    clausePieces " WHERE " (conditionPieces d false u.filter?) ++ returningPieces d u.returning

/-- The pieces of a delete. -/
def Delete.pieces (d : Dialect) (x : Delete) : List Piece :=
  .text "DELETE FROM " :: x.table.sourcePieces ++
    clausePieces " WHERE " (conditionPieces d false x.condition?) ++
    returningPieces d x.returning

/-- The pieces of a statement. -/
def Statement.pieces (d : Dialect) : Statement → List Piece
  | .select s => s.pieces d
  | .compound c => c.pieces d
  | .insert i _ => i.pieces d
  | .update u _ => u.pieces d
  | .delete x _ => x.pieces d

end TypedSql
