import TypedSql.Expr.Typing

/-!
# Building expressions

The functions here build expressions and refuse those that make no sense for the declared types.

* A raw value beside an expression with a declared type is encoded with that type.
* Equality with NULL becomes a test for NULL; every other operator refuses NULL.
* Ordering, patterns, arithmetic and the connectives ask for operands of their classes, and two
  operands of different known classes are never compared.
* Chains of one connective are flat: a chain inside a chain of the same connective is spliced in.
-/

namespace TypedSql

/-- What an operator is applied to: an expression, or a raw value. -/
inductive Operand
  | expr (e : Expr)
  | value (v : Value)

/-- The operand is NULL: the raw value, or a literal of it. -/
def Operand.isNull : Operand → Bool
  | .expr e => e.isNullLiteral
  | .value v => v.isNull

namespace Expr

/-- A raw value as an expression, without a type. -/
def ofValue (v : Value) : Expr :=
  .literal v none

/-- The name under which a refused value beside an expression is reported. -/
def encodingTarget : Expr → String
  | .column c => c.describe
  | e => e.describe

/-- A raw value beside an expression, encoded with the declared type of that expression. -/
def resolveValue (anchor : Expr) (v : Value) : Except BuildError Expr :=
  match anchor.type? with
  | none => .ok (.literal v none)
  | some type =>
    match type.encode v with
    | .ok w => .ok (.literal w (some type))
    | .error fault => .error (.encoding anchor.encodingTarget fault)

/-- An operand beside an expression; a literal without a type counts as a raw value. -/
def resolve (anchor : Expr) : Operand → Except BuildError Expr
  | .value v => anchor.resolveValue v
  | .expr (.literal v none) => anchor.resolveValue v
  | .expr e => .ok e

/-- The test for NULL. -/
def isNull (e : Expr) : Expr :=
  .nullTest e false

/-- The test for anything but NULL. -/
def isNotNull (e : Expr) : Expr :=
  .nullTest e true

/-- The negative of a number. -/
def neg (e : Expr) : Except BuildError Expr := do
  e.expectClass ValueClass.arithmetic .negation
  return .negation e

/-- The negation of a condition. -/
def not (e : Expr) : Except BuildError Expr := do
  e.expectClass ValueClass.predicate .complement
  return .complement e

end Expr

/-- The classes that both operands of a binary operator have to be of; equality takes them all. -/
def BinaryOp.operandClasses? : BinaryOp → Option (List ValueClass)
  | .compare op => if op.isOrdering then some ValueClass.orderable else none
  | .pattern _ => some ValueClass.textual
  | .arithmetic _ => some ValueClass.arithmetic

namespace Expr

/-- The expression is of a class that a binary operator takes. -/
def expectOperand (e : Expr) (op : BinaryOp) : Except BuildError Unit :=
  match op.operandClasses? with
  | some allowed => e.expectClass allowed (.binary op)
  | none => .ok ()

/-- A binary operator applied to an expression and an operand. -/
def operate (left : Expr) (op : BinaryOp) (operand : Operand) : Except BuildError Expr :=
  if left.isNullLiteral then
    .error (.nullOperand (.binary op))
  else if operand.isNull then
    match op with
    | .compare .eq => .ok left.isNull
    | .compare .notEq => .ok left.isNotNull
    | _ => .error (.nullOperand (.binary op))
  else do
    left.expectOperand op
    let right ← left.resolve operand
    right.expectOperand op
    left.expectComparable right (.binary op)
    return .binary left op right

/-- Whether an expression lies between two operands, or does not. -/
def between (subject : Expr) (low high : Operand) (negated : Bool) : Except BuildError Expr :=
  let construct := Construct.range negated
  if subject.isNullLiteral || low.isNull || high.isNull then
    .error (.nullOperand construct)
  else do
    subject.expectClass ValueClass.orderable construct
    let low ← subject.resolve low
    let high ← subject.resolve high
    subject.expectComparable low construct
    subject.expectComparable high construct
    return .range subject low high negated

/-- An operand beside an expression that takes no NULL and no other class. -/
def counterpart (subject : Expr) (construct : Construct) (operand : Operand) :
    Except BuildError Expr :=
  if operand.isNull then
    .error (.nullOperand construct)
  else do
    let e ← subject.resolve operand
    subject.expectComparable e construct
    return e

/-- The operands beside an expression, in turn. -/
def counterparts (subject : Expr) (construct : Construct) :
    List Operand → Except BuildError (List Expr)
  | [] => .ok []
  | operand :: operands => do
    let e ← subject.counterpart construct operand
    let es ← subject.counterparts construct operands
    return e :: es

/-- Whether an expression is one of some operands, or is none of them. -/
def inList (subject : Expr) (operands : List Operand) (negated : Bool) :
    Except BuildError Expr :=
  let construct := Construct.membership negated
  if subject.isNullLiteral then
    .error (.nullOperand construct)
  else do
    let items ← subject.counterparts construct operands
    return .listMembership subject items negated

/-- The single result column of a subquery goes with an expression. -/
def expectSubquery (subject : Expr) (query : Select) (construct : Construct) :
    Except BuildError Unit :=
  match query.outputClasses with
  | [found?] => subject.expectSameClass found? "subquery" construct
  | classes => .error (.widthsDiffer 1 classes.length)

/-- Whether an expression is among the rows of a subquery, or is not. -/
def inSelect (subject : Expr) (query : Select) (negated : Bool) : Except BuildError Expr := do
  subject.expectSubquery query (.membership negated)
  return .rowMembership subject query negated

/-- A comparison with any row or with all rows of a subquery. -/
def quantify (subject : Expr) (op : BinaryOp) (quantifier : Quantifier) (query : Select) :
    Except BuildError Expr :=
  match op with
  | .compare comparison =>
    if subject.isNullLiteral then
      .error (.nullOperand (.binary op))
    else do
      subject.expectOperand op
      subject.expectSubquery query (.binary op)
      return .quantified subject comparison quantifier query
  | _ => .error (.notComparison op quantifier)

/-- The conditions that an expression adds to a chain: its own parts if it is such a chain. -/
def partsFor (kind : Connective) : Expr → List Expr
  | .junction k parts => if k = kind then parts else [.junction k parts]
  | e => [e]

/-- The conditions of a chain of some expressions. -/
def chainParts (kind : Connective) : List Expr → Except BuildError (List Expr)
  | [] => .ok []
  | e :: es => do
    e.expectClass ValueClass.predicate (.junction kind)
    let rest ← chainParts kind es
    return e.partsFor kind ++ rest

/-- The chain of some conditions. -/
def chain (kind : Connective) (es : List Expr) : Except BuildError Expr := do
  let parts ← chainParts kind es
  return .junction kind parts

/-- All of some conditions. -/
def all (es : List Expr) : Except BuildError Expr :=
  chain .and es

/-- Any of some conditions. -/
def any (es : List Expr) : Except BuildError Expr :=
  chain .or es

/-- Both of two conditions. -/
def and (e f : Expr) : Except BuildError Expr :=
  all [e, f]

/-- One of two conditions, or both. -/
def or (e f : Expr) : Except BuildError Expr :=
  any [e, f]

/-- The condition of a clause after one more condition has been attached to it. -/
def attach (condition? : Option Expr) (e : Expr) : Except BuildError Expr :=
  match condition? with
  | some condition => condition.and e
  | none => .ok e

end Expr

/-- The classes that a function of one argument asks for; some functions take them all. -/
def UnaryFunction.argumentClasses? : UnaryFunction → Option (List ValueClass)
  | .sum | .avg => some ValueClass.arithmetic
  | .lower | .upper => some ValueClass.textual
  | .min | .max | .arrayAgg => none

namespace Expr

/-- A function of one argument. -/
def call (f : UnaryFunction) (e : Expr) : Except BuildError Expr :=
  match f.argumentClasses? with
  | some allowed => do
    e.expectClass allowed (.call f.function)
    return .apply f e
  | none => .ok (.apply f e)

/-- An expression, or an operand where the expression is NULL. -/
def coalesce (e : Expr) (operand : Operand) : Except BuildError Expr := do
  let fallback ← e.resolve operand
  e.expectComparable fallback (.call .coalesce)
  return .orElse e fallback

/-- The greatest or the least of an expression and some operands; of one alone it is that one. -/
def pick (f : Extremum) (first : Expr) (operands : List Operand) : Except BuildError Expr := do
  first.expectClass ValueClass.orderable (.call f.function)
  match ← first.counterparts (.call f.function) operands with
  | [] => return first
  | second :: rest => return .extremum f first second rest

/-- The texts of a group with a separator between them. -/
def stringAgg (e : Expr) (separator : String) : Except BuildError Expr := do
  e.expectClass ValueClass.textual (.call .stringAgg)
  return .joinedText e separator

end Expr

end TypedSql
