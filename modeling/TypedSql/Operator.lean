/-!
# Operators

The operators, connectives, quantifiers and functions that expressions are made of, each with its
spelling. Binary operators come in three families, which differ in what they ask of their operands.
-/

namespace TypedSql

/-- The comparisons. -/
inductive Comparison
  | eq
  | notEq
  | lt
  | ltEq
  | gt
  | gtEq
  deriving DecidableEq, Repr

/-- The spelling of a comparison. -/
def Comparison.sql : Comparison → String
  | .eq => "="
  | .notEq => "!="
  | .lt => "<"
  | .ltEq => "<="
  | .gt => ">"
  | .gtEq => ">="

/-- The comparison asks for an order, not only for equality. -/
def Comparison.isOrdering : Comparison → Bool
  | .eq | .notEq => false
  | .lt | .ltEq | .gt | .gtEq => true

/-- A pattern match, which may ignore case and may be negated. -/
structure PatternMatch where
  ignoresCase : Bool
  negated : Bool
  deriving DecidableEq, Repr

/-- The spelling of a pattern match. -/
def PatternMatch.sql (m : PatternMatch) : String :=
  (if m.negated then "NOT " else "") ++ (if m.ignoresCase then "ILIKE" else "LIKE")

/-- The arithmetic operators. -/
inductive Arithmetic
  | add
  | sub
  | mul
  | div
  deriving DecidableEq, Repr

/-- The spelling of an arithmetic operator. -/
def Arithmetic.sql : Arithmetic → String
  | .add => "+"
  | .sub => "-"
  | .mul => "*"
  | .div => "/"

/-- The binary operators. -/
inductive BinaryOp
  | compare (op : Comparison)
  | pattern (m : PatternMatch)
  | arithmetic (op : Arithmetic)
  deriving DecidableEq, Repr

/-- The spelling of a binary operator. -/
def BinaryOp.sql : BinaryOp → String
  | .compare op => op.sql
  | .pattern m => m.sql
  | .arithmetic op => op.sql

/-- The connectives that join conditions. -/
inductive Connective
  | and
  | or
  deriving DecidableEq, Repr

/-- The spelling of a connective. -/
def Connective.sql : Connective → String
  | .and => "AND"
  | .or => "OR"

/-- The truth value of a chain without conditions: all of none hold, and not any of none. -/
def Connective.unit : Connective → Bool
  | .and => true
  | .or => false

/-- How many rows of a subquery a comparison has to hold for. -/
inductive Quantifier
  | any
  | all
  deriving DecidableEq, Repr

/-- The spelling of a quantifier. -/
def Quantifier.sql : Quantifier → String
  | .any => "ANY"
  | .all => "ALL"

/-- The functions. -/
inductive SqlFunction
  | count
  | sum
  | avg
  | min
  | max
  | coalesce
  | lower
  | upper
  | greatest
  | least
  | stringAgg
  | arrayAgg
  deriving DecidableEq, Repr

/-- Every function once. -/
def SqlFunction.all : List SqlFunction :=
  [.count, .sum, .avg, .min, .max, .coalesce, .lower, .upper, .greatest, .least, .stringAgg,
    .arrayAgg]

/-- The name of a function. -/
def SqlFunction.name : SqlFunction → String
  | .count => "COUNT"
  | .sum => "SUM"
  | .avg => "AVG"
  | .min => "MIN"
  | .max => "MAX"
  | .coalesce => "COALESCE"
  | .lower => "LOWER"
  | .upper => "UPPER"
  | .greatest => "GREATEST"
  | .least => "LEAST"
  | .stringAgg => "STRING_AGG"
  | .arrayAgg => "ARRAY_AGG"

/-- The functions of exactly one argument. -/
inductive UnaryFunction
  | sum
  | avg
  | min
  | max
  | lower
  | upper
  | arrayAgg
  deriving DecidableEq, Repr

/-- A function of one argument as a function. -/
def UnaryFunction.function : UnaryFunction → SqlFunction
  | .sum => .sum
  | .avg => .avg
  | .min => .min
  | .max => .max
  | .lower => .lower
  | .upper => .upper
  | .arrayAgg => .arrayAgg

/-- The functions that pick one of two or more arguments by their order. -/
inductive Extremum
  | greatest
  | least
  deriving DecidableEq, Repr

/-- A choice by order as a function. -/
def Extremum.function : Extremum → SqlFunction
  | .greatest => .greatest
  | .least => .least

/-- The kinds of join that have a condition. -/
inductive JoinKind
  | inner
  | left
  | right
  | full
  deriving DecidableEq, Repr

/-- The spelling of a join. -/
def JoinKind.sql : JoinKind → String
  | .inner => "INNER JOIN"
  | .left => "LEFT JOIN"
  | .right => "RIGHT JOIN"
  | .full => "FULL OUTER JOIN"

/-- The spelling of a join without a condition. -/
def crossJoinSql : String := "CROSS JOIN"

/-- The operators that combine the rows of two queries. -/
inductive SetOperator
  | union
  | unionAll
  | intersect
  | except
  deriving DecidableEq, Repr

/-- The spelling of a set operator. -/
def SetOperator.sql : SetOperator → String
  | .union => "UNION"
  | .unionAll => "UNION ALL"
  | .intersect => "INTERSECT"
  | .except => "EXCEPT"

/-- Which way a sort goes. -/
inductive Direction
  | ascending
  | descending
  deriving DecidableEq, Repr

/-- The spelling of a direction. -/
def Direction.sql : Direction → String
  | .ascending => "ASC"
  | .descending => "DESC"

/-- Where a sort puts rows whose key is NULL. -/
inductive NullPlacement
  | first
  | last
  deriving DecidableEq, Repr

/-- The spelling of a placement. -/
def NullPlacement.sql : NullPlacement → String
  | .first => "NULLS FIRST"
  | .last => "NULLS LAST"

/-- The clauses of a statement that hold a condition. -/
inductive ConditionClause
  | joinOn
  | filter
  | having
  deriving DecidableEq, Repr

/-- The spelling of a clause that holds a condition. -/
def ConditionClause.sql : ConditionClause → String
  | .joinOn => "JOIN ON"
  | .filter => "WHERE"
  | .having => "HAVING"

/-- The constructs that ask something of their operands. -/
inductive Construct
  | binary (op : BinaryOp)
  | negation
  | complement
  | junction (kind : Connective)
  | range (negated : Bool)
  | membership (negated : Bool)
  | call (f : SqlFunction)
  | condition (clause : ConditionClause)
  deriving DecidableEq, Repr

/-- The name of a construct. -/
def Construct.sql : Construct → String
  | .binary op => op.sql
  | .negation => "-"
  | .complement => "NOT"
  | .junction kind => kind.sql
  | .range negated => if negated then "NOT BETWEEN" else "BETWEEN"
  | .membership negated => if negated then "NOT IN" else "IN"
  | .call f => f.name
  | .condition clause => clause.sql

end TypedSql
