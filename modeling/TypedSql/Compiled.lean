import TypedSql.Statement.Pieces

/-!
# Compiled statements

A statement is compiled for a dialect to its text and its parameters, in the order of the
placeholders of the text.
-/

namespace TypedSql

/-- The text of a statement and the values of its placeholders. -/
structure Compiled where
  sql : String
  parameters : List Value
  deriving DecidableEq

namespace Compiled

/-- The text and the parameters of pieces for a dialect. -/
def ofPieces (d : Dialect) (ps : List Piece) : Compiled :=
  ⟨Piece.sql d ps, Piece.parameters ps⟩

/-- The written form: the text, then the parameters. -/
def toJson (c : Compiled) : Json :=
  .object
    [("sql", .string c.sql), ("params", .array (c.parameters.map Value.toJson))]

end Compiled

/-- Compile a statement for a dialect. -/
def Statement.compile (s : Statement) (d : Dialect) : Compiled :=
  .ofPieces d (s.pieces d)

end TypedSql
