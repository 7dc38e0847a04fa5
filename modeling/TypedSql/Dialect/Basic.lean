import TypedSql.Operator

/-!
# Dialects

Database engines differ in how placeholders, identifiers, truth values and functions are spelled,
and in which constructs they know. A `Dialect` is the list of these choices; a statement is written
by asking it. The choices that a dialect does not make are those of the engine-neutral one.
-/

namespace TypedSql

/-- How placeholders are spelled: all alike, or by their position. -/
inductive PlaceholderStyle
  | questionMark
  | numbered
  deriving DecidableEq, Repr

/-- The placeholder of a position, counted from one. -/
def PlaceholderStyle.placeholder : PlaceholderStyle → Nat → String
  | .questionMark, _ => "?"
  | .numbered, n => "$" ++ toString n

/-- The spelling and the abilities of a database engine. -/
structure Dialect where
  name : String
  /-- The character that encloses identifiers. -/
  identifierQuote : Char := '"'
  placeholderStyle : PlaceholderStyle := .questionMark
  booleanLiteral : Bool → String := fun b => if b then "TRUE" else "FALSE"
  /-- The engine knows `RETURNING`. -/
  supportsReturning : Bool := false
  /-- The engine knows `ILIKE`. -/
  supportsIlike : Bool := false
  /-- The engine knows `NULLS FIRST` and `NULLS LAST`. -/
  supportsNullPlacement : Bool := true
  /-- What to write for a limit when there is an offset alone. -/
  unboundedLimit? : Option String := none
  functionName : SqlFunction → String := SqlFunction.name
  /-- The separator of a text aggregate is a clause with a literal. -/
  separatorClause : Bool := false
  /-- The engine knows comparisons with any row or all rows of a subquery. -/
  supportsQuantified : Bool := true

namespace Dialect

/-- The characters of an identifier with every quote doubled. -/
def doubleQuotes (quote : Char) : List Char → List Char
  | [] => []
  | c :: cs =>
    if c = quote then quote :: quote :: doubleQuotes quote cs else c :: doubleQuotes quote cs

/-- An identifier between quotes. -/
def quoteIdentifier (d : Dialect) (name : String) : String :=
  String.ofList (d.identifierQuote :: doubleQuotes d.identifierQuote name.toList ++
    [d.identifierQuote])

/-- The placeholder of a position, counted from one. -/
def placeholder (d : Dialect) (n : Nat) : String :=
  d.placeholderStyle.placeholder n

/-- The engine-neutral dialect. -/
def generic : Dialect where
  name := "generic"

/-- The dialect of PostgreSQL. -/
def postgres : Dialect where
  name := "postgres"
  placeholderStyle := .numbered
  supportsReturning := true
  supportsIlike := true

/-- The dialect of SQLite, whose greatest and least of several arguments are `MAX` and `MIN`. -/
def sqlite : Dialect where
  name := "sqlite"
  booleanLiteral b := if b then "1" else "0"
  supportsReturning := true
  unboundedLimit? := some "-1"
  functionName
    | .greatest => "MAX"
    | .least => "MIN"
    | .stringAgg => "GROUP_CONCAT"
    | .arrayAgg => "JSON_GROUP_ARRAY"
    | f => f.name
  supportsQuantified := false

/-- The dialect of MySQL. The largest unsigned whole number stands for no limit. -/
def mysql : Dialect where
  name := "mysql"
  identifierQuote := '\x60'
  supportsNullPlacement := false
  unboundedLimit? := some "18446744073709551615"
  functionName
    | .stringAgg => "GROUP_CONCAT"
    | .arrayAgg => "JSON_ARRAYAGG"
    | f => f.name
  separatorClause := true

end Dialect

end TypedSql
