import TypedSql.Expr.Pieces
import TypedSql.Proofs.Grammar
import TypedSql.Proofs.Lexing

/-!
# What a reader should read

`Expr.reading` is the expression that can be read off the text of an expression. It differs from the
expression itself in no more than this: literals lose their types; columns and tables are known by
the names that are written for them; a chain of one condition is that condition, and an empty chain
and membership in an empty list are truth values; a select lists its default result columns, and
does not say which outer tables it refers to. All calls are one construct there, with the function,
which no two kinds of calls share, and the arguments in order.

`Piece.phrase` are the tokens of a layout, with the values themselves where placeholders stand.
-/

namespace TypedSql

/-- The names of a column as they are read. -/
def Column.reading (qualify : Bool) (c : Column) : Option String × String :=
  (if qualify then some c.qualifier else none, c.name)

/-- A column as an expression that is read. -/
def Column.readingExpr (qualify : Bool) (c : Column) : SqlExpr :=
  .column (c.reading qualify).1 (c.reading qualify).2

mutual

/-- An expression as it is read. -/
def Expr.reading (qualify : Bool) : Expr → SqlExpr
  | .column c => c.readingExpr qualify
  | .literal v _ => .value v
  | .negation e => .negation (e.reading qualify)
  | .complement e => .complement (e.reading qualify)
  | .nullTest e negated => .nullTest (e.reading qualify) negated
  | .binary l op r => .binary (l.reading qualify) op (r.reading qualify)
  | .junction kind [] => .truth kind.unit
  | .junction kind (e :: es) => .chained kind (e.reading qualify :: readingsOf qualify es)
  | .rowCount => .rowCount
  | .valueCount distinct e => .call .count distinct [e.reading qualify]
  | .apply f e => .call f.function false [e.reading qualify]
  | .orElse e fallback => .call .coalesce false [e.reading qualify, fallback.reading qualify]
  | .extremum f first second rest =>
    .call f.function false
      (first.reading qualify :: second.reading qualify :: readingsOf qualify rest)
  | .joinedText e separator =>
    .call .stringAgg false [e.reading qualify, .value (.text separator)]
  | .listMembership _ [] negated => .truth negated
  | .listMembership e (item :: items) negated =>
    .listMembership (e.reading qualify) (item.reading qualify :: readingsOf qualify items) negated
  | .rowMembership e query negated => .rowMembership (e.reading qualify) query.reading negated
  | .range e low high negated =>
    .range (e.reading qualify) (low.reading qualify) (high.reading qualify) negated
  | .existence query negated => .existence query.reading negated
  | .quantified e op quantifier query =>
    .quantified (e.reading qualify) op quantifier query.reading

/-- Expressions as they are read. -/
def readingsOf (qualify : Bool) : List Expr → List SqlExpr
  | [] => []
  | e :: es => e.reading qualify :: readingsOf qualify es

/-- A condition that may be missing, as it is read. -/
def readingOfClause (qualify : Bool) : Option Expr → Option SqlExpr
  | none => none
  | some e => some (e.reading qualify)

/-- Result columns as they are read. -/
def readingsOfProjections (qualify : Bool) : List Projection → List SqlItem
  | [] => []
  | ⟨e, alias?⟩ :: ps => ⟨e.reading qualify, alias?⟩ :: readingsOfProjections qualify ps

/-- Joins as they are read. -/
def readingsOfJoins (qualify : Bool) : List Join → List SqlJoin
  | [] => []
  | .on kind t condition :: js =>
    .on kind t.ref (condition.reading qualify) :: readingsOfJoins qualify js
  | .cross t :: js => .cross t.ref :: readingsOfJoins qualify js

/-- Sort keys as they are read. -/
def readingsOfSortKeys (qualify : Bool) : List SortKey → List SqlSortKey
  | [] => []
  | ⟨e, direction, nulls?⟩ :: ks =>
    ⟨e.reading qualify, direction, nulls?⟩ :: readingsOfSortKeys qualify ks

/-- A select as it is read. -/
def Select.reading : Select → SqlSelect
  | ⟨distinct, projections, source, correlated, joins, filter?, groupBy, having?, orderBy, limit?,
      offset?⟩ =>
    let qualify := !joins.isEmpty || !correlated.isEmpty
    ⟨distinct,
      if projections.isEmpty then source.columns.map fun c => ⟨c.readingExpr qualify, none⟩
      else readingsOfProjections qualify projections,
      source.ref, readingsOfJoins qualify joins, readingOfClause qualify filter?,
      groupBy.map (Column.reading qualify), readingOfClause qualify having?,
      readingsOfSortKeys qualify orderBy, limit?, offset?⟩

end

/-- A result column as it is read. -/
def Projection.reading (qualify : Bool) (p : Projection) : SqlItem :=
  ⟨p.expr.reading qualify, p.alias?⟩

/-- A join as it is read. -/
def Join.reading (qualify : Bool) : Join → SqlJoin
  | .on kind t condition => .on kind t.ref (condition.reading qualify)
  | .cross t => .cross t.ref

/-- A sort key as it is read. -/
def SortKey.reading (qualify : Bool) (k : SortKey) : SqlSortKey :=
  ⟨k.expr.reading qualify, k.direction, k.nulls?⟩

variable {qualify : Bool}

theorem readingsOf_eq (es : List Expr) :
    readingsOf qualify es = es.map (Expr.reading qualify) := by
  induction es with
  | nil => rfl
  | cons e es ih => simp [readingsOf, ih]

theorem readingOfClause_eq (e? : Option Expr) :
    readingOfClause qualify e? = e?.map (Expr.reading qualify) := by
  cases e? <;> rfl

theorem readingsOfProjections_eq (ps : List Projection) :
    readingsOfProjections qualify ps = ps.map (Projection.reading qualify) := by
  induction ps with
  | nil => rfl
  | cons p ps ih =>
    obtain ⟨e, alias?⟩ := p
    simp [readingsOfProjections, Projection.reading, ih]

theorem readingsOfJoins_eq (js : List Join) :
    readingsOfJoins qualify js = js.map (Join.reading qualify) := by
  induction js with
  | nil => rfl
  | cons j js ih => cases j <;> simp [readingsOfJoins, Join.reading, ih]

theorem readingsOfSortKeys_eq (ks : List SortKey) :
    readingsOfSortKeys qualify ks = ks.map (SortKey.reading qualify) := by
  induction ks with
  | nil => rfl
  | cons k ks ih =>
    obtain ⟨e, direction, nulls?⟩ := k
    simp [readingsOfSortKeys, SortKey.reading, ih]

/-- The result columns of a select as they are read. -/
def Select.readingItems (s : Select) : List SqlItem :=
  if s.projections.isEmpty then
    s.source.columns.map fun c => ⟨c.readingExpr s.qualifies, none⟩
  else s.projections.map (Projection.reading s.qualifies)

theorem Select.reading_eq (s : Select) :
    s.reading =
      ⟨s.distinct, s.readingItems, s.source.ref, s.joins.map (Join.reading s.qualifies),
        s.filter?.map (Expr.reading s.qualifies), s.groupBy.map (Column.reading s.qualifies),
        s.having?.map (Expr.reading s.qualifies), s.orderBy.map (SortKey.reading s.qualifies),
        s.limit?, s.offset?⟩ := by
  cases s
  simp [Select.reading, Select.readingItems, Select.qualifies, readingsOfProjections_eq,
    readingsOfJoins_eq, readingOfClause_eq, readingsOfSortKeys_eq]

/-! ### Phrases -/

/-- A token without data, for placeholders with any data. -/
def Token.fixed? {α β : Type} : Token α → Option (Token β)
  | .word w => some (.word w)
  | .operator s => some (.operator s)
  | .mark c => some (.mark c)
  | _ => none

/-- The tokens of a fixed text. -/
def fixedTokens (s : String) : List (Token Value) :=
  (lex '"' s).filterMap Token.fixed?

@[simp] theorem fixedTokens_opening : fixedTokens "(" = [.mark '('] := by
  decide

@[simp] theorem fixedTokens_closing : fixedTokens ")" = [.mark ')'] := by
  decide

@[simp] theorem fixedTokens_dot : fixedTokens "." = [.mark '.'] := by
  decide

@[simp] theorem fixedTokens_as : fixedTokens " AS " = [.word "AS"] := by
  decide

/-- A word after a text that ends with a blank. -/
theorem fixedTokens_append_word {s w : String}
    (hs : Lexer.run '"' .idle s.toList = (lex '"' s, .idle)) (hw : IsPlainWord w) :
    fixedTokens (s ++ w) = fixedTokens s ++ [.word w] := by
  have hquote : Lexer.IsQuote '"' := Dialect.isPlain_postgres.quote
  rw [fixedTokens, lex, String.toList_append, Lexer.tokens_append, hs,
    Lexer.tokens_word hquote hw.1 hw.2, List.filterMap_append, String.ofList_toList]
  rfl

namespace Piece

/-- The tokens of a piece. -/
def phrasing : Piece → List (Token Value)
  | .text s => fixedTokens s
  | .identifier name => [.identifier name]
  | .parameter v => [.placeholder v]
  | .quotedText s => [.quotedText s]
  | .notice _ => []

/-- The tokens of pieces. -/
def phrase (ps : List Piece) : List (Token Value) :=
  ps.flatMap phrasing

@[simp] theorem phrase_nil : phrase [] = [] := rfl

@[simp] theorem phrase_append (ps qs : List Piece) : phrase (ps ++ qs) = phrase ps ++ phrase qs :=
  List.flatMap_append

@[simp] theorem phrase_cons_text (s : String) (ps : List Piece) :
    phrase (.text s :: ps) = fixedTokens s ++ phrase ps := rfl

@[simp] theorem phrase_cons_identifier (name : String) (ps : List Piece) :
    phrase (.identifier name :: ps) = .identifier name :: phrase ps := rfl

@[simp] theorem phrase_cons_parameter (v : Value) (ps : List Piece) :
    phrase (.parameter v :: ps) = .placeholder v :: phrase ps := rfl

theorem phrase_parenthesized (ps : List Piece) :
    phrase (parenthesized ps) = .mark '(' :: (phrase ps ++ [.mark ')']) := by
  simp [parenthesized]

/-- Between the phrases of items stands the token of the separator. -/
theorem phrase_separated {separator : String} {t : Token Value}
    (h : fixedTokens separator = [t]) (ps : List Piece) (items : List (List Piece)) :
    phrase (separated separator (ps :: items)) =
      phrase ps ++ items.flatMap fun qs => t :: phrase qs := by
  induction items generalizing ps with
  | nil => simp [separated]
  | cons qs items ih => simp [separated, h, ih qs]

end Piece

/-- A token of fixed text is the same for all data of placeholders. -/
theorem Token.bind_of_isFixed {t : Token Nat} (h : t.isFixed = true) (vs : List Value) :
    t.bind vs = t.fixed? := by
  cases t <;> first | rfl | cases h

theorem mapM_bind_of_isFixed {ts : List (Token Nat)} (h : ∀ t ∈ ts, t.isFixed = true)
    (vs : List Value) : ts.mapM (Token.bind vs) = some (ts.filterMap Token.fixed?) := by
  induction ts with
  | nil => rfl
  | cons t ts ih =>
    obtain ⟨ht, hts⟩ := List.forall_mem_cons.1 h
    have hsome : ∃ u : Token Value, t.fixed? = some u := by
      cases t <;> first | exact ⟨_, rfl⟩ | cases ht
    obtain ⟨u, hu⟩ := hsome
    simp [List.mapM_cons, Token.bind_of_isFixed ht, hu, ih hts]

/-- The tokens of a tidy layout with its values bound are its phrase. -/
theorem Piece.mapM_bind_tokens {d : Dialect} (hd : d.IsPlain) (hquote : d.identifierQuote = '"')
    (hstyle : d.placeholderStyle = .numbered) {e : Edge} {ps : List Piece} (hps : Tidy e ps)
    (before : List Value) :
    (tokens d (before.length + 1) ps).mapM (Token.bind (before ++ parameters ps)) =
      some (phrase ps) := by
  induction ps generalizing e before with
  | nil => rfl
  | cons p ps ih =>
    cases p with
    | text s =>
      obtain ⟨⟨-, hplain⟩, -, hrest⟩ := hps
      have hfixed : ∀ t ∈ Lexer.tokens d.identifierQuote .idle s.toList, t.isFixed = true :=
        Lexer.isFixed_of_mem_tokens hd.quote rfl hplain
      have hparameters : parameters (.text s :: ps) = parameters ps := rfl
      rw [tokens, List.mapM_append, hparameters, lex, mapM_bind_of_isFixed hfixed, ih hrest]
      simp [fixedTokens, lex, hquote]
    | identifier name =>
      have hparameters : parameters (.identifier name :: ps) = parameters ps := rfl
      rw [tokens, List.mapM_cons, hparameters, ih hps.2]
      rfl
    | parameter v =>
      -- The values before are those whose placeholders have been counted.
      have hparameters : before ++ parameters (.parameter v :: ps) =
          (before ++ [v]) ++ parameters ps := by simp [parameters, parameter?]
      have hlength : before.length + 1 + 1 = (before ++ [v]).length + 1 := by simp
      have hvalue : ((before ++ [v]) ++ parameters ps)[before.length]? = some v := by simp
      rw [tokens, hstyle, List.mapM_cons, hparameters, hlength, ih hps.2]
      simp [PlaceholderStyle.token, Token.bind]
    | quotedText s =>
      have hparameters : parameters (.quotedText s :: ps) = parameters ps := rfl
      rw [tokens, List.mapM_cons, hparameters, ih hps.2]
      rfl
    | notice k => exact ih hps before

end TypedSql
