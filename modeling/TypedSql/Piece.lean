import TypedSql.Dialect.Basic
import TypedSql.Value

/-!
# Pieces of statements

A statement is laid out as a list of pieces before it becomes text: fixed text, identifiers, values,
quoted texts, and notices on what a dialect lacks. The text, the parameters and the notices of a
statement are three views of one list, so the k-th placeholder always stands for the k-th parameter.
-/

namespace TypedSql

/-- Something to note about how a construct is written for a dialect. -/
inductive Notice
  /-- Both operands of a match that ignores case are lower-cased instead. -/
  | ilikeEmulated
  /-- The placement of NULL is a sort key of its own instead. -/
  | nullPlacementEmulated
  /-- Columns are returned although the dialect does not say that it can. -/
  | returningUnsupported
  /-- A quantified comparison is written although the dialect does not say that it knows them. -/
  | quantifiedUnsupported (op : Comparison) (quantifier : Quantifier)
  deriving DecidableEq, Repr

/-- A piece of a statement. -/
inductive Piece
  /-- Text that does not depend on values or names. -/
  | text (s : String)
  /-- A name between the quotes of the dialect. -/
  | identifier (name : String)
  /-- A value, for which a placeholder is written. -/
  | parameter (v : Value)
  /-- A text that is written as a literal. -/
  | quotedText (s : String)
  /-- A notice, for which nothing is written. -/
  | notice (n : Notice)
  deriving DecidableEq

namespace Piece

/-- A character of a text literal: a quote and a backslash are doubled. -/
def escapeLiteral (c : Char) : List Char :=
  if c = '\'' ∨ c = '\\' then [c, c] else [c]

/-- A text between single quotes. -/
def literal (s : String) : String :=
  String.ofList ('\'' :: s.toList.flatMap escapeLiteral ++ ['\''])

/-- The value that a piece binds. -/
def parameter? : Piece → Option Value
  | .parameter v => some v
  | _ => none

/-- The notice that a piece is. -/
def notice? : Piece → Option Notice
  | .notice n => some n
  | _ => none

/-- The texts of pieces for a dialect, where the next placeholder has the given position. -/
def texts (d : Dialect) : Nat → List Piece → List String
  | _, [] => []
  | n, .text s :: ps => s :: texts d n ps
  | n, .identifier name :: ps => d.quoteIdentifier name :: texts d n ps
  | n, .parameter _ :: ps => d.placeholder n :: texts d (n + 1) ps
  | n, .quotedText s :: ps => literal s :: texts d n ps
  | n, .notice _ :: ps => texts d n ps

/-- The text of pieces for a dialect. -/
def sql (d : Dialect) (ps : List Piece) : String :=
  String.join (texts d 1 ps)

/-- The values that pieces bind, in the order of their placeholders. -/
def parameters (ps : List Piece) : List Value :=
  ps.filterMap parameter?

/-- The notices among pieces, in order. -/
def notices (ps : List Piece) : List Notice :=
  ps.filterMap notice?

@[simp] theorem parameters_nil : parameters [] = [] := rfl

@[simp] theorem parameters_append (ps qs : List Piece) :
    parameters (ps ++ qs) = parameters ps ++ parameters qs := by
  simp [parameters]

@[simp] theorem notices_append (ps qs : List Piece) :
    notices (ps ++ qs) = notices ps ++ notices qs := by
  simp [notices]

/-- Texts are laid side by side; placeholders go on counting. -/
theorem texts_append (d : Dialect) (n : Nat) (ps qs : List Piece) :
    texts d n (ps ++ qs) = texts d n ps ++ texts d (n + (parameters ps).length) qs := by
  induction ps generalizing n with
  | nil => simp [texts]
  | cons p ps ih =>
    cases p <;> simp [texts, ih, parameters, parameter?, List.filterMap_cons, Nat.add_right_comm,
      Nat.add_assoc]

/-- Pieces in parentheses. -/
def parenthesized (ps : List Piece) : List Piece :=
  .text "(" :: ps ++ [.text ")"]

/-- Pieces that stand alone or in parentheses. -/
def enclosedIf (compound : Bool) (ps : List Piece) : List Piece :=
  if compound then parenthesized ps else ps

/-- Lists of pieces with a separator between them. -/
def separated (separator : String) : List (List Piece) → List Piece
  | [] => []
  | [ps] => ps
  | ps :: qs :: rest => ps ++ .text separator :: separated separator (qs :: rest)

/-- Lists of pieces with commas between them. -/
def commaSeparated (items : List (List Piece)) : List Piece :=
  separated ", " items

end Piece

end TypedSql
