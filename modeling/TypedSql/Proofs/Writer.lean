import TypedSql.Proofs.Skeleton

/-!
# Writing from left to right

A statement can also be written without laying it out first: by a writer that goes through it once
and adds text at the end of what there is. A `Writer` is the state of this: the text and the values
so far, what there was to notice, and whether columns are qualified at the moment. Each select
decides for itself whether its columns are qualified, so the writer changes its mind at the start of
a select and goes back to what it did before at the end (`Writing.qualifying`).

There are no pieces here: names are spelled and values get their positions as the writer comes to
them. `Writer.append` adds pieces to what there is, and acts of writing are compared with it in
`TypedSql.Proofs.WrittenLayouts`.
-/

namespace TypedSql

/-! ### The state of writing -/

/-- A writer in the middle of a statement. -/
structure Writer where
  /-- The text so far. -/
  text : String
  /-- The values of the placeholders so far. -/
  values : List Value
  /-- What there was to notice so far. -/
  notices : List Notice
  /-- Columns are written with their qualifiers. -/
  qualify : Bool

/-- An act of writing. -/
abbrev Writing := StateM Writer Unit

namespace Writer

/-- A writer that has not written anything. -/
def start : Writer :=
  ⟨"", [], [], false⟩

/-- The writer after an act of writing. -/
def after (w : Writer) (act : Writing) : Writer :=
  (act.run w).2

/-- The statement that is written. -/
def finish (w : Writer) : Compiled :=
  ⟨w.text, w.values⟩

/-- The writer with pieces added to what there is; their placeholders go on counting. -/
def append (spelling : Spelling) (w : Writer) (ps : List Piece) : Writer where
  text := w.text ++ String.join (Piece.textsIn spelling (w.values.length + 1) ps)
  values := w.values ++ Piece.parameters ps
  notices := w.notices ++ Piece.notices ps
  qualify := w.qualify

end Writer

/-- Texts are laid side by side; placeholders go on counting. -/
theorem Piece.textsIn_append (spelling : Spelling) (n : Nat) (ps qs : List Piece) :
    textsIn spelling n (ps ++ qs) =
      textsIn spelling n ps ++ textsIn spelling (n + (parameters ps).length) qs := by
  induction ps generalizing n with
  | nil => rfl
  | cons p ps ih =>
    cases p <;> simp [textsIn, ih, parameters, parameter?, List.filterMap_cons,
      Nat.add_right_comm, Nat.add_assoc]

namespace Writer

variable (spelling : Spelling) (w : Writer)

/-- Pieces that are added in turn are added together. -/
theorem append_append (ps qs : List Piece) :
    (w.append spelling ps).append spelling qs = w.append spelling (ps ++ qs) := by
  simp only [append, Piece.parameters_append, Piece.notices_append, Piece.textsIn_append,
    String.join_append, String.append_assoc, List.append_assoc, List.length_append,
    Nat.add_right_comm]

theorem after_pure : w.after (pure ()) = w := rfl

theorem after_bind (a b : Writing) : w.after (do a; b) = (w.after a).after b := rfl

end Writer

/-! ### Acts of writing -/

namespace Writing

/-- Write a text. -/
def push (s : String) : Writing :=
  modify fun w => { w with text := w.text ++ s }

/-- Write a text if it is asked for. -/
def pushIf (asked : Bool) (s : String) : Writing :=
  if asked then push s else pure ()

/-- Notice something. -/
def note (n : Notice) : Writing :=
  modify fun w => { w with notices := w.notices ++ [n] }

/-- Write a name between quotes. -/
def identifier (spelling : Spelling) (name : String) : Writing :=
  push (spelling.identifier name)

/-- Keep a value, and return the position of its placeholder, counted from one. -/
def register (v : Value) : StateM Writer Nat := do
  modify fun w => { w with values := w.values ++ [v] }
  return (← get).values.length

/-- Write a placeholder for a value. -/
def parameter (spelling : Spelling) (v : Value) : Writing := do
  let n ← register v
  push (spelling.placeholder n)

/-- Write with or without qualifiers, and then go on as before. -/
def qualifying (qualify : Bool) (act : Writing) : Writing := do
  let outer := (← get).qualify
  modify fun w => { w with qualify }
  act
  modify fun w => { w with qualify := outer }

/-- Write without qualifiers, from here on. -/
def unqualified (act : Writing) : Writing := do
  modify fun w => { w with qualify := false }
  act

/-- Write something in parentheses, or as it is. -/
def enclosedIf (compound : Bool) (act : Writing) : Writing :=
  if compound then do
    push "("
    act
    push ")"
  else act

/-- Write one after another with a separator between them. -/
def separated (separator : String) : List Writing → Writing
  | [] => pure ()
  | [act] => act
  | act :: next :: rest => do
    act
    push separator
    separated separator (next :: rest)

/-- Write one after another with commas between them. -/
def commaSeparated (acts : List Writing) : Writing :=
  separated ", " acts

/-- Write a call of a function with some arguments. -/
def call (d : Dialect) (f : SqlFunction) (arguments : Writing) : Writing := do
  push (d.functionName f)
  push "("
  arguments
  push ")"

/-- Write a keyword and what follows it, if anything does. -/
def clause (keyword : String) : Option Writing → Writing
  | some act => do
    push keyword
    act
  | none => pure ()

end Writing

open Writing

/-- Write a column, with its qualifier if columns are qualified at the moment. -/
def Column.write (spelling : Spelling) (c : Column) : Writing := do
  let w ← get
  if w.qualify then
    identifier spelling c.qualifier
    push "."
    identifier spelling c.name
  else
    identifier spelling c.name

/-- Write the name of a table, in its schema if it has one. -/
def Table.writeName (spelling : Spelling) (t : Table) : Writing :=
  match t.ref.schema? with
  | some schema => do
    identifier spelling schema
    push "."
    identifier spelling t.ref.name
  | none => identifier spelling t.ref.name

/-- Write a table as a source of rows, under its alias if it has one. -/
def Table.write (spelling : Spelling) (t : Table) : Writing := do
  t.writeName spelling
  match t.ref.alias? with
  | some name => do
    push " AS "
    identifier spelling name
  | none => pure ()

/-- Write an operator between two operands. -/
def writeBetween (operator : String) (left right : Expr) (writeLeft writeRight : Writing) :
    Writing := do
  enclosedIf (!left.isAtomic) writeLeft
  push (" " ++ operator ++ " ")
  enclosedIf (!right.isAtomic) writeRight

/-- Write a pattern match, by lower-cased operands if the dialect cannot ignore case itself. -/
def PatternMatch.write (d : Dialect) (m : PatternMatch) (left right : Expr)
    (writeLeft writeRight : Writing) : Writing :=
  if m.ignoresCase && !d.supportsIlike then do
    note .ilikeEmulated
    push "LOWER("
    writeLeft
    push (if m.negated then ") NOT LIKE LOWER(" else ") LIKE LOWER(")
    writeRight
    push ")"
  else writeBetween m.sql left right writeLeft writeRight

/-- Write a binary operator between two operands. -/
def BinaryOp.write (d : Dialect) (op : BinaryOp) (left right : Expr)
    (writeLeft writeRight : Writing) : Writing :=
  match op with
  | .pattern m => m.write d left right writeLeft writeRight
  | _ => writeBetween op.sql left right writeLeft writeRight

/-- Write the opening of a quantified comparison; in a dialect that does not know these, membership
in other words is membership. -/
def Quantifier.writeOpening (d : Dialect) (op : Comparison) (quantifier : Quantifier) : Writing :=
  let written := push (" " ++ op.sql ++ " " ++ quantifier.sql ++ " (")
  if d.supportsQuantified then written
  else
    match op, quantifier with
    | .eq, .any => push (membershipText false)
    | .notEq, .all => push (membershipText true)
    | _, _ => do
      note (.quantifiedUnsupported op quantifier)
      written

/-- Write a sort key; a placement of NULL is a sort key of its own in a dialect that does not know
placements. -/
def writeSortKey (d : Dialect) (e : Expr) (direction : Direction) (nulls? : Option NullPlacement)
    (writeExpr : Writing) : Writing :=
  let sorted : Writing := do
    writeExpr
    push (" " ++ direction.sql)
  match nulls? with
  | none => sorted
  | some nulls =>
    if d.supportsNullPlacement then do
      sorted
      push (" " ++ nulls.sql)
    else do
      note .nullPlacementEmulated
      enclosedIf (!e.isAtomic) writeExpr
      push (match nulls with | .first => " IS NULL DESC, " | .last => " IS NULL ASC, ")
      sorted

/-- Write the clause of some sort keys. -/
def writeOrder (keys : List Writing) : Writing :=
  if keys.isEmpty then pure ()
  else do
    push " ORDER BY "
    commaSeparated keys

/-- Write the clause of a limit; some dialects need one for every offset. -/
def writeLimit (d : Dialect) (limit? offset? : Option Nat) : Writing :=
  match limit?, offset? with
  | some n, _ => push (" LIMIT " ++ toString n)
  | none, some _ =>
    match d.unboundedLimit? with
    | some s => push (" LIMIT " ++ s)
    | none => pure ()
  | none, none => pure ()

/-- Write the clauses of a limit and an offset. -/
def writePage (d : Dialect) (limit? offset? : Option Nat) : Writing := do
  writeLimit d limit? offset?
  match offset? with
  | some n => push (" OFFSET " ++ toString n)
  | none => pure ()

mutual

/-- Write an expression. -/
def Expr.write (d : Dialect) (spelling : Spelling) : Expr → Writing
  | .column c => c.write spelling
  | .literal v _ => parameter spelling v
  | .negation e => do
    push "-"
    enclosedIf (!e.isAtomic) (e.write d spelling)
  | .complement e => do
    push "NOT ("
    e.write d spelling
    push ")"
  | .nullTest e negated => do
    enclosedIf (!e.isAtomic) (e.write d spelling)
    push (if negated then " IS NOT NULL" else " IS NULL")
  | .binary l op r => op.write d l r (l.write d spelling) (r.write d spelling)
  | .junction kind parts =>
    if parts.isEmpty then push (d.booleanLiteral kind.unit)
    else separated (" " ++ kind.sql ++ " ") (writeParts d spelling parts)
  | .rowCount => call d .count (push "*")
  | .valueCount distinct e => call d .count do
    pushIf distinct "DISTINCT "
    e.write d spelling
  | .apply f e => call d f.function (e.write d spelling)
  | .orElse e fallback =>
    call d .coalesce (commaSeparated [e.write d spelling, fallback.write d spelling])
  | .extremum f first second rest =>
    call d f.function
      (commaSeparated
        (first.write d spelling :: second.write d spelling :: writeItems d spelling rest))
  | .joinedText e separator =>
    call d .stringAgg
      (if d.separatorClause then do
        e.write d spelling
        push " SEPARATOR "
        push (Piece.literal separator)
      else commaSeparated [e.write d spelling, parameter spelling (.text separator)])
  | .listMembership e items negated =>
    if items.isEmpty then push (d.booleanLiteral negated)
    else do
      enclosedIf (!e.isAtomic) (e.write d spelling)
      push (membershipText negated)
      commaSeparated (writeItems d spelling items)
      push ")"
  | .rowMembership e query negated => do
    enclosedIf (!e.isAtomic) (e.write d spelling)
    push (membershipText negated)
    query.write d spelling
    push ")"
  | .range e low high negated => do
    enclosedIf (!e.isAtomic) (e.write d spelling)
    push (if negated then " NOT BETWEEN " else " BETWEEN ")
    enclosedIf (!low.isAtomic) (low.write d spelling)
    push " AND "
    enclosedIf (!high.isAtomic) (high.write d spelling)
  | .existence query negated => do
    push (if negated then "NOT EXISTS (" else "EXISTS (")
    query.write d spelling
    push ")"
  | .quantified e op quantifier query => do
    enclosedIf (!e.isAtomic) (e.write d spelling)
    quantifier.writeOpening d op
    query.write d spelling
    push ")"

/-- Write expressions that stand between commas. -/
def writeItems (d : Dialect) (spelling : Spelling) : List Expr → List Writing
  | [] => []
  | e :: es => e.write d spelling :: writeItems d spelling es

/-- Write conditions that stand in a chain. -/
def writeParts (d : Dialect) (spelling : Spelling) : List Expr → List Writing
  | [] => []
  | e :: es => enclosedIf e.isJunction (e.write d spelling) :: writeParts d spelling es

/-- Write a condition that may be missing. -/
def writeCondition (d : Dialect) (spelling : Spelling) : Option Expr → Option Writing
  | none => none
  | some e => some (e.write d spelling)

/-- Write result columns. -/
def writeProjections (d : Dialect) (spelling : Spelling) : List Projection → List Writing
  | [] => []
  | ⟨e, alias?⟩ :: ps =>
    (do
      e.write d spelling
      clause " AS " (alias?.map (identifier spelling))) :: writeProjections d spelling ps

/-- Write joins. -/
def writeJoins (d : Dialect) (spelling : Spelling) : List Join → Writing
  | [] => pure ()
  | .on kind t condition :: js => do
    push (" " ++ kind.sql ++ " ")
    t.write spelling
    push " ON "
    condition.write d spelling
    writeJoins d spelling js
  | .cross t :: js => do
    push (" " ++ crossJoinSql ++ " ")
    t.write spelling
    writeJoins d spelling js

/-- Write sort keys. -/
def writeSortKeys (d : Dialect) (spelling : Spelling) : List SortKey → List Writing
  | [] => []
  | ⟨e, direction, nulls?⟩ :: ks =>
    writeSortKey d e direction nulls? (e.write d spelling) :: writeSortKeys d spelling ks

/-- Write a select. -/
def Select.write (d : Dialect) (spelling : Spelling) : Select → Writing
  | ⟨distinct, projections, source, correlated, joins, filter?, groupBy, having?, orderBy, limit?,
      offset?⟩ =>
    qualifying (!joins.isEmpty || !correlated.isEmpty) do
      push "SELECT "
      pushIf distinct "DISTINCT "
      commaSeparated
        (if projections.isEmpty then source.columns.map (Column.write spelling)
          else writeProjections d spelling projections)
      push " FROM "
      source.write spelling
      writeJoins d spelling joins
      clause " WHERE " (writeCondition d spelling filter?)
      clause " GROUP BY "
        (if groupBy.isEmpty then none
          else some (commaSeparated (groupBy.map (Column.write spelling))))
      clause " HAVING " (writeCondition d spelling having?)
      writeOrder (writeSortKeys d spelling orderBy)
      writePage d limit? offset?

end

/-- Write a result column. -/
def Projection.write (d : Dialect) (spelling : Spelling) (p : Projection) : Writing := do
  p.expr.write d spelling
  clause " AS " (p.alias?.map (identifier spelling))

/-- Write a join. -/
def Join.write (d : Dialect) (spelling : Spelling) : Join → Writing
  | .on kind t condition => do
    push (" " ++ kind.sql ++ " ")
    t.write spelling
    push " ON "
    condition.write d spelling
  | .cross t => do
    push (" " ++ crossJoinSql ++ " ")
    t.write spelling

/-- Write a sort key. -/
def SortKey.write (d : Dialect) (spelling : Spelling) (k : SortKey) : Writing :=
  writeSortKey d k.expr k.direction k.nulls? (k.expr.write d spelling)

section Lists

variable (d : Dialect) (spelling : Spelling)

theorem writeItems_eq (es : List Expr) :
    writeItems d spelling es = es.map (Expr.write d spelling) := by
  induction es with
  | nil => rfl
  | cons e es ih => simp [writeItems, ih]

theorem writeParts_eq (es : List Expr) :
    writeParts d spelling es = es.map fun e => enclosedIf e.isJunction (e.write d spelling) := by
  induction es with
  | nil => rfl
  | cons e es ih => simp [writeParts, ih]

theorem writeCondition_eq (e? : Option Expr) :
    writeCondition d spelling e? = e?.map (Expr.write d spelling) := by
  cases e? <;> rfl

theorem writeProjections_eq (ps : List Projection) :
    writeProjections d spelling ps = ps.map (Projection.write d spelling) := by
  induction ps with
  | nil => rfl
  | cons p ps ih =>
    obtain ⟨e, alias?⟩ := p
    simp [writeProjections, Projection.write, ih]

theorem writeSortKeys_eq (ks : List SortKey) :
    writeSortKeys d spelling ks = ks.map (SortKey.write d spelling) := by
  induction ks with
  | nil => rfl
  | cons k ks ih =>
    obtain ⟨e, direction, nulls?⟩ := k
    simp [writeSortKeys, SortKey.write, ih]

end Lists

/-! ### Statements -/

/-- Write the clause of the columns that a statement returns, if it returns any. -/
def writeReturning (d : Dialect) (spelling : Spelling) (columns : List Column) : Writing :=
  if columns.isEmpty then pure ()
  else
    let written : Writing := do
      push " RETURNING "
      commaSeparated (columns.map (Column.write spelling))
    if d.supportsReturning then written
    else do
      note .returningUnsupported
      written

/-- Write the members after the first of a compound select. -/
def writeMembers (d : Dialect) (spelling : Spelling) : List (SetOperator × Select) → Writing
  | [] => pure ()
  | (op, s) :: members => do
    push (" " ++ op.sql ++ " ")
    s.write d spelling
    writeMembers d spelling members

/-- Write a compound select. Its sort keys name result columns, which have no qualifiers. -/
def CompoundSelect.write (d : Dialect) (spelling : Spelling) (c : CompoundSelect) : Writing := do
  c.first.write d spelling
  writeMembers d spelling c.rest
  unqualified do
    writeOrder (writeSortKeys d spelling c.orderBy)
    writePage d c.limit? c.offset?

/-- Write an insert. -/
def Insert.write (d : Dialect) (spelling : Spelling) (i : Insert) : Writing := do
  push "INSERT INTO "
  i.table.writeName spelling
  push " ("
  commaSeparated (i.columns.map fun c => identifier spelling c.name)
  push ") VALUES "
  commaSeparated (i.rows.map fun row =>
    enclosedIf true (commaSeparated (writeItems d spelling row)))
  writeReturning d spelling i.returning

/-- Write an assignment. -/
def writeAssignment (d : Dialect) (spelling : Spelling) (assignment : Column × Expr) : Writing := do
  identifier spelling assignment.1.name
  push " = "
  assignment.2.write d spelling

/-- Write an update. -/
def Update.write (d : Dialect) (spelling : Spelling) (u : Update) : Writing := do
  push "UPDATE "
  u.table.write spelling
  push " SET "
  commaSeparated (u.assignments.map (writeAssignment d spelling))
  clause " WHERE " (writeCondition d spelling u.filter?)
  writeReturning d spelling u.returning

/-- Write a delete. -/
def Delete.write (d : Dialect) (spelling : Spelling) (x : Delete) : Writing := do
  push "DELETE FROM "
  x.table.write spelling
  clause " WHERE " (writeCondition d spelling x.condition?)
  writeReturning d spelling x.returning

/-- Write a statement. -/
def Statement.write (d : Dialect) (spelling : Spelling) : Statement → Writing
  | .select s => s.write d spelling
  | .compound c => c.write d spelling
  | .insert i _ => i.write d spelling
  | .update u _ => u.write d spelling
  | .delete x _ => x.write d spelling

end TypedSql
