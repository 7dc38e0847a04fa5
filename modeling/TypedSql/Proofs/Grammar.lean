import TypedSql.Operator
import TypedSql.Proofs.Token
import TypedSql.Table

/-!
# A grammar of expressions

`SqlExpr` and `SqlSelect` are what can be read off a text: columns and tables by the names that are
written for them, values, and the constructs around them. A reader takes tokens from the front of a
list. The readers of expressions are layers, one for each precedence:

* `disjunction`, `conjunction`, `negated`: `OR`, then `AND`, then `NOT`;
* `comparison`: comparisons, `LIKE`, `IS NULL`, `IN` and `BETWEEN`, which do not chain;
* `sum`, `product`: `+` and `-`, then `*` and `/`, to the left;
* `unary`, `primary`: the minus sign, then columns, values, calls and parentheses.

What stands in parentheses or after a prefix is read by the readers of the level below, so that
`readers n` reads nestings up to the depth `n`.
-/

namespace TypedSql

mutual

/-- An expression as it is read. -/
inductive SqlExpr
  | column (qualifier? : Option String) (name : String)
  | value (v : Value)
  | truth (b : Bool)
  | negation (operand : SqlExpr)
  | complement (operand : SqlExpr)
  | nullTest (operand : SqlExpr) (negated : Bool)
  | binary (left : SqlExpr) (op : BinaryOp) (right : SqlExpr)
  | junction (kind : Connective) (parts : List SqlExpr)
  | rowCount
  | call (f : SqlFunction) (distinct : Bool) (arguments : List SqlExpr)
  | listMembership (subject : SqlExpr) (items : List SqlExpr) (negated : Bool)
  | rowMembership (subject : SqlExpr) (query : SqlSelect) (negated : Bool)
  | range (subject low high : SqlExpr) (negated : Bool)
  | existence (query : SqlSelect) (negated : Bool)
  | quantified (subject : SqlExpr) (op : Comparison) (quantifier : Quantifier) (query : SqlSelect)

/-- A result column as it is read. -/
structure SqlItem where
  expr : SqlExpr
  alias? : Option String

/-- A join as it is read. -/
inductive SqlJoin
  | on (kind : JoinKind) (table : TableRef) (condition : SqlExpr)
  | cross (table : TableRef)

/-- A sort key as it is read. -/
structure SqlSortKey where
  expr : SqlExpr
  direction : Direction
  nulls? : Option NullPlacement

/-- A select as it is read. -/
structure SqlSelect where
  distinct : Bool
  items : List SqlItem
  source : TableRef
  joins : List SqlJoin
  filter? : Option SqlExpr
  groupBy : List (Option String × String)
  having? : Option SqlExpr
  orderBy : List SqlSortKey
  limit? : Option Nat
  offset? : Option Nat

end

/-- A chain of conditions as it is read: one condition alone is no chain. -/
def SqlExpr.chained (kind : Connective) : List SqlExpr → SqlExpr
  | [e] => e
  | es => .junction kind es

/-- A reader of something at the front of tokens, which returns the tokens after it. -/
abbrev Reader (α : Type) :=
  List (Token Value) → Option (α × List (Token Value))

namespace Reader

variable {α : Type}

/-- The tokens after a keyword. -/
def expect : List (Token Value) → List (Token Value) → Option (List (Token Value))
  | [], ts => some ts
  | _ :: _, [] => none
  | k :: keyword, t :: ts => if t = k then expect keyword ts else none

/-- Something after a keyword. -/
def after (keyword : List (Token Value)) (p : Reader α) : Reader α := fun ts => do
  let ts ← expect keyword ts
  p ts

/-- Something in parentheses. -/
def enclosed (p : Reader α) : Reader α := fun ts => do
  let (a, ts) ← after [.mark '('] p ts
  let ts ← expect [.mark ')'] ts
  return (a, ts)

/-- Something that may be missing. -/
def optionally (p : Reader α) : Reader (Option α) := fun ts =>
  match p ts with
  | some (a, ts) => some (some a, ts)
  | none => some (none, ts)

/-- Something as often as it is there, up to some number of times. -/
def many (p : Reader α) : Nat → Reader (List α)
  | 0, ts => some ([], ts)
  | n + 1, ts =>
    match p ts with
    | some (a, ts) => do
      let (as, ts) ← many p n ts
      return (a :: as, ts)
    | none => some ([], ts)

/-- Something once, and again after each separator. -/
def separated (separator : Token Value) (p : Reader α) : Reader (List α) := fun ts => do
  let (a, ts) ← p ts
  let (as, ts) ← many (after [separator] p) ts.length ts
  return (a :: as, ts)

/-- One of some choices, by its keyword. -/
def choice (keyword : α → List (Token Value)) (choices : List α) : Reader α := fun ts =>
  choices.findSome? fun a => (expect (keyword a) ts).map fun ts => (a, ts)

/-- Something that is read as a part of something else. -/
def map {β : Type} (f : α → β) (p : Reader α) : Reader β := fun ts =>
  (p ts).map fun r => (f r.1, r.2)

/-! ### Names and numbers -/

/-- A quoted name. -/
def identifier : Reader String
  | .identifier name :: ts => some (name, ts)
  | _ => none

/-- A name that may be qualified by another. -/
def dottedName : Reader (Option String × String) := fun ts => do
  let (first, ts) ← identifier ts
  let (second?, ts) ← optionally (after [.mark '.'] identifier) ts
  match second? with
  | some second => return ((some first, second), ts)
  | none => return ((none, first), ts)

/-- A table with its alias. -/
def tableSource : Reader TableRef := fun ts => do
  let ((schema?, name), ts) ← dottedName ts
  let (alias?, ts) ← optionally (after [.word "AS"] identifier) ts
  return (⟨schema?, name, alias?⟩, ts)

/-- A whole number. -/
def number : Reader Nat
  | .word w :: ts =>
    if w.toList.all Char.isDigit then some (Nat.ofDigitChars 10 w.toList 0, ts) else none
  | _ => none

/-! ### Expressions -/

/-- Readers of what stands one level deeper. -/
structure Deeper where
  expr : Reader SqlExpr
  negated : Reader SqlExpr
  unary : Reader SqlExpr
  select : Reader SqlSelect

section Layers

variable (deeper : Deeper)

/-- What stands between the parentheses of a call. -/
def arguments (f : SqlFunction) : Reader SqlExpr := fun ts =>
  match expect [.operator "*"] ts with
  | some ts => if f = .count then some (.rowCount, ts) else none
  | none =>
    match expect [.word "DISTINCT"] ts with
    | some ts => (separated (.mark ',') deeper.expr).map (.call f true) ts
    | none => (separated (.mark ',') deeper.expr).map (.call f false) ts

/-- A column, a value, a truth value, a call, a test for rows, or something in parentheses. -/
def primary : Reader SqlExpr
  | .identifier name :: ts =>
    dottedName.map (fun c => .column c.1 c.2) (.identifier name :: ts)
  | .placeholder v :: ts => some (.value v, ts)
  | .mark c :: ts => enclosed deeper.expr (.mark c :: ts)
  | .word w :: ts =>
    if w = "TRUE" then some (.truth true, ts)
    else if w = "FALSE" then some (.truth false, ts)
    else if w = "EXISTS" then (enclosed deeper.select).map (.existence · false) ts
    else
      match SqlFunction.all.find? fun f => f.name == w with
      | some f => enclosed (arguments deeper f) ts
      | none => none
  | _ => none

/-- A minus sign before something unary, or something primary. -/
def unary : Reader SqlExpr := fun ts =>
  match expect [.operator "-"] ts with
  | some ts => deeper.unary.map .negation ts
  | none => primary deeper ts

/-- Operators of one precedence with their right operands, after a left operand. -/
def operations (ops : List Arithmetic) (p : Reader SqlExpr) : Nat → SqlExpr → Reader SqlExpr
  | 0, left, ts => some (left, ts)
  | n + 1, left, ts =>
    match choice (fun op => [.operator op.sql]) ops ts with
    | some (op, ts) => do
      let (right, ts) ← p ts
      operations ops p n (.binary left (.arithmetic op) right) ts
    | none => some (left, ts)

/-- Operands with operators of one precedence between them. -/
def arithmetic (ops : List Arithmetic) (p : Reader SqlExpr) : Reader SqlExpr := fun ts => do
  let (left, ts) ← p ts
  operations ops p ts.length left ts

/-- Products and quotients. -/
def product : Reader SqlExpr :=
  arithmetic [.mul, .div] (unary deeper)

/-- Sums and differences. -/
def sum : Reader SqlExpr :=
  arithmetic [.add, .sub] (product deeper)

/-- What a comparison compares with: an operand, or any row or all rows of a subquery. -/
def compared (left : SqlExpr) (op : Comparison) : Reader SqlExpr := fun ts =>
  match choice (fun q => [.word (Quantifier.sql q)]) [.any, .all] ts with
  | some (q, ts) => (enclosed deeper.select).map (.quantified left op q) ts
  | none => (sum deeper).map (.binary left (.compare op)) ts

/-- What stands between the parentheses of a membership test. -/
def members (left : SqlExpr) (negated : Bool) : Reader SqlExpr := fun ts =>
  match expect [.word "SELECT"] ts with
  | some _ => deeper.select.map (.rowMembership left · negated) ts
  | none => (separated (.mark ',') deeper.expr).map (.listMembership left · negated) ts

/-- The bounds of a range. -/
def bounds (left : SqlExpr) (negated : Bool) : Reader SqlExpr := fun ts => do
  let (low, ts) ← sum deeper ts
  let ts ← expect [.word "AND"] ts
  (sum deeper).map (.range left low · negated) ts

/-- A predicate that `NOT` may stand before. -/
def predicate (left : SqlExpr) (negated : Bool) : Reader SqlExpr
  | .word w :: ts =>
    if w = "LIKE" then (sum deeper).map (.binary left (.pattern ⟨false, negated⟩)) ts
    else if w = "ILIKE" then (sum deeper).map (.binary left (.pattern ⟨true, negated⟩)) ts
    else if w = "IN" then enclosed (members deeper left negated) ts
    else if w = "BETWEEN" then bounds deeper left negated ts
    else none
  | _ => none

/-- What follows the left operand of a comparison, if it is one. -/
def suffix (left : SqlExpr) : Reader SqlExpr
  | .operator s :: ts =>
    match [Comparison.eq, .notEq, .lt, .ltEq, .gt, .gtEq].find? fun op => op.sql == s with
    | some op => compared deeper left op ts
    | none => some (left, .operator s :: ts)
  | .word w :: ts =>
    if w = "IS" then
      choice (fun negated => (if negated then [.word "NOT"] else []) ++ [.word "NULL"])
        [false, true] |>.map (.nullTest left) <| ts
    else if w = "NOT" then predicate deeper left true ts
    else if w ∈ ["LIKE", "ILIKE", "IN", "BETWEEN"] then predicate deeper left false (.word w :: ts)
    else some (left, .word w :: ts)
  | ts => some (left, ts)

/-- A comparison, or an operand alone. -/
def comparison : Reader SqlExpr := fun ts => do
  let (left, ts) ← sum deeper ts
  suffix deeper left ts

/-- A negated condition, or a condition; `NOT EXISTS` is one operator. -/
def negated : Reader SqlExpr := fun ts =>
  match expect [.word "NOT", .word "EXISTS"] ts with
  | some ts => (enclosed deeper.select).map (.existence · true) ts
  | none =>
    match expect [.word "NOT"] ts with
    | some ts => deeper.negated.map .complement ts
    | none => comparison deeper ts

/-- Conditions that all have to hold. -/
def conjunction : Reader SqlExpr :=
  (separated (.word "AND") (negated deeper)).map (.chained .and)

/-- Conditions of which one has to hold. -/
def disjunction : Reader SqlExpr :=
  (separated (.word "OR") (conjunction deeper)).map (.chained .or)

/-! ### Selects -/

/-- A result column. -/
def item : Reader SqlItem := fun ts => do
  let (e, ts) ← deeper.expr ts
  let (alias?, ts) ← optionally (after [.word "AS"] identifier) ts
  return (⟨e, alias?⟩, ts)

/-- The keyword of a join with a condition. -/
def joinKeyword : JoinKind → List (Token Value)
  | .inner => [.word "INNER", .word "JOIN"]
  | .left => [.word "LEFT", .word "JOIN"]
  | .right => [.word "RIGHT", .word "JOIN"]
  | .full => [.word "FULL", .word "OUTER", .word "JOIN"]

/-- A join. -/
def join : Reader SqlJoin := fun ts =>
  match expect [.word "CROSS", .word "JOIN"] ts with
  | some ts => tableSource.map .cross ts
  | none => do
    let (kind, ts) ← choice joinKeyword [.inner, .left, .right, .full] ts
    let (table, ts) ← tableSource ts
    (after [.word "ON"] deeper.expr).map (.on kind table) ts

/-- The keyword of a placement of NULL, after `NULLS`. -/
def placementKeyword : NullPlacement → List (Token Value)
  | .first => [.word "FIRST"]
  | .last => [.word "LAST"]

/-- A sort key. -/
def sortKey : Reader SqlSortKey := fun ts => do
  let (e, ts) ← deeper.expr ts
  let (direction, ts) ← choice (fun d => [.word (Direction.sql d)]) [.ascending, .descending] ts
  let (nulls?, ts) ← optionally
    (after [.word "NULLS"] (choice placementKeyword [.first, .last])) ts
  return (⟨e, direction, nulls?⟩, ts)

/-- A select, clause by clause. -/
def select : Reader SqlSelect := fun ts => do
  let (distinct?, ts) ← after [.word "SELECT"]
    (optionally (choice (fun _ => [.word "DISTINCT"]) [()])) ts
  let (items, ts) ← separated (.mark ',') (item deeper) ts
  let (source, ts) ← after [.word "FROM"] tableSource ts
  let (joins, ts) ← many (join deeper) ts.length ts
  let (filter?, ts) ← optionally (after [.word "WHERE"] deeper.expr) ts
  let (groupBy?, ts) ← optionally
    (after [.word "GROUP", .word "BY"] (separated (.mark ',') dottedName)) ts
  let (having?, ts) ← optionally (after [.word "HAVING"] deeper.expr) ts
  let (orderBy?, ts) ← optionally
    (after [.word "ORDER", .word "BY"] (separated (.mark ',') (sortKey deeper))) ts
  let (limit?, ts) ← optionally (after [.word "LIMIT"] number) ts
  let (offset?, ts) ← optionally (after [.word "OFFSET"] number) ts
  return (⟨distinct?.isSome, items, source, joins, filter?, groupBy?.getD [], having?,
    orderBy?.getD [], limit?, offset?⟩, ts)

end Layers

/-- The readers that read nestings up to a depth. -/
def readers : Nat → Deeper
  | 0 => ⟨fun _ => none, fun _ => none, fun _ => none, fun _ => none⟩
  | n + 1 =>
    ⟨disjunction (readers n), negated (readers n), unary (readers n), select (readers n)⟩

end Reader

/-- A token with the value of its placeholder, the k-th of some parameters for the number k. -/
def Token.bind (parameters : List Value) : Token Nat → Option (Token Value)
  | .word w => some (.word w)
  | .operator s => some (.operator s)
  | .mark c => some (.mark c)
  | .identifier name => some (.identifier name)
  | .quotedText s => some (.quotedText s)
  | .placeholder 0 => none
  | .placeholder (k + 1) => parameters[k]?.map .placeholder
  | .unfinished => none

/-- The expression that a whole text is read as, with its parameters in place of placeholders. The
depth of no nesting exceeds the number of tokens. -/
def readExpr (sql : String) (parameters : List Value) : Option SqlExpr := do
  let ts ← (lex '"' sql).mapM (Token.bind parameters)
  match (Reader.readers ts.length).expr ts with
  | some (e, []) => some e
  | _ => none

end TypedSql
