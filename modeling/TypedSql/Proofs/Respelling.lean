import TypedSql.Dialect.Config
import TypedSql.Proofs.Literals
import TypedSql.Proofs.Skeleton

/-!
# Configured dialects write what their base writes

The layout of a statement depends on the words and abilities of a dialect, and on nothing else of it:
`Dialect.SameWords` says that two dialects agree in these, and `Statement.pieces_eq_of_sameWords`
that they lay out every statement alike. How identifiers are quoted and placeholders are spelled only
matters when the pieces become text.

A configured dialect has the words and abilities of its base, so that it writes the pieces of its
base in a spelling of its own: `DialectConfig.spelling`.
-/

namespace TypedSql

/-- Two dialects have the same words and abilities. They may have different names, and may quote
identifiers and spell placeholders differently. -/
structure Dialect.SameWords (d d' : Dialect) : Prop where
  booleanLiteral : d.booleanLiteral = d'.booleanLiteral
  supportsReturning : d.supportsReturning = d'.supportsReturning
  supportsIlike : d.supportsIlike = d'.supportsIlike
  supportsNullPlacement : d.supportsNullPlacement = d'.supportsNullPlacement
  unboundedLimit : d.unboundedLimit? = d'.unboundedLimit?
  functionName : d.functionName = d'.functionName
  separatorClause : d.separatorClause = d'.separatorClause
  supportsQuantified : d.supportsQuantified = d'.supportsQuantified

section Pieces

variable {d d' : Dialect} (h : d.SameWords d')
include h

namespace Dialect.SameWords

theorem callPieces (f : SqlFunction) (arguments : List Piece) :
    callPieces d f arguments = callPieces d' f arguments := by
  rw [TypedSql.callPieces, h.functionName, TypedSql.callPieces]

theorem binaryPieces (op : BinaryOp) (l r : Expr) (ps qs : List Piece) :
    op.pieces d l r ps qs = op.pieces d' l r ps qs := by
  cases op with
  | pattern m =>
    rw [BinaryOp.pieces, PatternMatch.pieces, h.supportsIlike, BinaryOp.pieces, PatternMatch.pieces]
  | compare op => rfl
  | arithmetic op => rfl

theorem opening (op : Comparison) (quantifier : Quantifier) :
    quantifier.opening d op = quantifier.opening d' op := by
  unfold Quantifier.opening
  rw [h.supportsQuantified]

theorem sortKeyPieces (e : Expr) (direction : Direction) (nulls? : Option NullPlacement)
    (ps : List Piece) :
    sortKeyPieces d e direction nulls? ps = sortKeyPieces d' e direction nulls? ps := by
  unfold TypedSql.sortKeyPieces
  rw [h.supportsNullPlacement]

theorem pagePieces (limit? offset? : Option Nat) :
    pagePieces d limit? offset? = pagePieces d' limit? offset? := by
  unfold TypedSql.pagePieces
  rw [h.unboundedLimit]

theorem returningPieces (columns : List Column) :
    returningPieces d columns = returningPieces d' columns := by
  rw [TypedSql.returningPieces, h.supportsReturning, TypedSql.returningPieces]

end Dialect.SameWords

/-- An expression is laid out alike if its parts and its subquery are. -/
theorem Expr.pieces_eq_of_parts (e : Expr)
    (parts : ∀ c ∈ e.children, ∀ qualify, c.pieces d qualify = c.pieces d' qualify)
    (query : ∀ s, e.query? = some s → s.pieces d = s.pieces d') (qualify : Bool) :
    e.pieces d qualify = e.pieces d' qualify := by
  have hparts := fun c hc => parts c hc qualify
  cases e with
  | junction kind es =>
    have hes : partPieces d qualify es = partPieces d' qualify es := by
      rw [partPieces_eq, partPieces_eq]
      exact List.map_congr_left fun e he => by rw [hparts e he]
    rw [pieces, pieces, hes, h.booleanLiteral]
  | listMembership e items negated =>
    obtain ⟨he, hitems⟩ := List.forall_mem_cons.1 hparts
    have hlist : itemPieces d qualify items = itemPieces d' qualify items := by
      rw [itemPieces_eq, itemPieces_eq]
      exact List.map_congr_left hitems
    rw [pieces, pieces, he, hlist, h.booleanLiteral]
  | extremum f first second rest =>
    obtain ⟨hfirst, hothers⟩ := List.forall_mem_cons.1 hparts
    obtain ⟨hsecond, hrest⟩ := List.forall_mem_cons.1 hothers
    have hlist : itemPieces d qualify rest = itemPieces d' qualify rest := by
      rw [itemPieces_eq, itemPieces_eq]
      exact List.map_congr_left hrest
    rw [pieces, pieces, hfirst, hsecond, hlist, h.callPieces]
  | joinedText e separator =>
    rw [pieces, pieces, hparts e (by simp [children]), h.separatorClause, h.callPieces]
  | rowMembership e s negated =>
    rw [pieces, pieces, hparts e (by simp [children]), query s rfl]
  | existence s negated => rw [pieces, pieces, query s rfl]
  | quantified e op quantifier s =>
    rw [pieces, pieces, hparts e (by simp [children]), query s rfl, h.opening]
  | _ =>
    simp only [children, List.forall_mem_cons] at hparts
    simp only [pieces, hparts, h.callPieces, h.binaryPieces]

/-- A select is laid out alike if the expressions of its clauses are. -/
theorem Select.pieces_eq_of_clauses (s : Select)
    (clauses : ∀ e ∈ s.clauseExprs, ∀ qualify, e.pieces d qualify = e.pieces d' qualify) :
    s.pieces d = s.pieces d' := by
  obtain ⟨hprojections, hjoins, hfilter, hhaving, horder⟩ := s.forall_clauseExprs.1 clauses
  have hprojections' : s.projections.map (Projection.pieces d s.qualifies) =
      s.projections.map (Projection.pieces d' s.qualifies) :=
    List.map_congr_left fun p hp => by
      rw [Projection.pieces, hprojections p hp, Projection.pieces]
  have hjoins' : s.joins.flatMap (Join.pieces d s.qualifies) =
      s.joins.flatMap (Join.pieces d' s.qualifies) := by
    refine List.flatMap_congr fun j hj => ?_
    cases j with
    | cross t => rfl
    | on kind t condition =>
      rw [Join.pieces, hjoins _ hj condition (by simp [Join.condition?]), Join.pieces]
  have hcondition : ∀ e? : Option Expr,
      (∀ e ∈ e?.toList, ∀ qualify, e.pieces d qualify = e.pieces d' qualify) →
        e?.map (Expr.pieces d s.qualifies) = e?.map (Expr.pieces d' s.qualifies) := by
    intro e? he
    cases e? with
    | none => rfl
    | some e => rw [Option.map_some, he e (by simp), Option.map_some]
  have horder' : s.orderBy.map (SortKey.pieces d s.qualifies) =
      s.orderBy.map (SortKey.pieces d' s.qualifies) :=
    List.map_congr_left fun k hk => by
      rw [SortKey.pieces, horder k hk, h.sortKeyPieces, SortKey.pieces]
  rw [pieces_eq, pieces_eq, hprojections', hjoins', hcondition _ hfilter, hcondition _ hhaving,
    horder', h.pagePieces]

theorem Expr.pieces_eq_of_sameWords (e : Expr) (qualify : Bool) :
    e.pieces d qualify = e.pieces d' qualify :=
  Expr.induction (P := fun e => ∀ qualify, e.pieces d qualify = e.pieces d' qualify)
    (Q := fun s => s.pieces d = s.pieces d') (Expr.pieces_eq_of_parts h)
    (Select.pieces_eq_of_clauses h) e qualify

theorem Select.pieces_eq_of_sameWords (s : Select) : s.pieces d = s.pieces d' :=
  s.pieces_eq_of_clauses h fun e _ => e.pieces_eq_of_sameWords h

theorem CompoundSelect.pieces_eq_of_sameWords (c : CompoundSelect) : c.pieces d = c.pieces d' := by
  have hmembers : memberPieces d c.rest = memberPieces d' c.rest :=
    List.flatMap_congr fun m _ => by rw [m.2.pieces_eq_of_sameWords h]
  have hkeys : sortPieces d false c.orderBy = sortPieces d' false c.orderBy := by
    rw [sortPieces_eq, sortPieces_eq]
    exact List.map_congr_left fun k _ => by
      rw [SortKey.pieces, k.expr.pieces_eq_of_sameWords h, h.sortKeyPieces, SortKey.pieces]
  rw [pieces, c.first.pieces_eq_of_sameWords h, hmembers, hkeys, h.pagePieces, pieces]

theorem Insert.pieces_eq_of_sameWords (i : Insert) : i.pieces d = i.pieces d' := by
  have hrow : ∀ row : List Expr, rowPieces d row = rowPieces d' row := by
    intro row
    rw [rowPieces, itemPieces_eq, rowPieces, itemPieces_eq,
      List.map_congr_left fun e _ => e.pieces_eq_of_sameWords h false]
  rw [pieces, h.returningPieces, List.map_congr_left fun row _ => hrow row, pieces]

/-- The conditions of statements on one table are laid out alike. -/
theorem conditionPieces_eq_of_sameWords (e? : Option Expr) :
    conditionPieces d false e? = conditionPieces d' false e? := by
  cases e? with
  | none => rfl
  | some e => exact congrArg some (e.pieces_eq_of_sameWords h false)

theorem Update.pieces_eq_of_sameWords (u : Update) : u.pieces d = u.pieces d' := by
  have hassignment : ∀ a : Column × Expr, assignmentPieces d a = assignmentPieces d' a := by
    intro a
    rw [assignmentPieces, a.2.pieces_eq_of_sameWords h, assignmentPieces]
  rw [pieces, h.returningPieces, conditionPieces_eq_of_sameWords h,
    List.map_congr_left fun a _ => hassignment a, pieces]

theorem Delete.pieces_eq_of_sameWords (x : Delete) : x.pieces d = x.pieces d' := by
  rw [pieces, h.returningPieces, conditionPieces_eq_of_sameWords h, pieces]

/-- Dialects with the same words lay out every statement alike. -/
theorem Statement.pieces_eq_of_sameWords (s : Statement) : s.pieces d = s.pieces d' := by
  cases s with
  | select s => exact s.pieces_eq_of_sameWords h
  | compound c => exact c.pieces_eq_of_sameWords h
  | insert i _ => exact i.pieces_eq_of_sameWords h
  | update u _ => exact u.pieces_eq_of_sameWords h
  | delete x _ => exact x.pieces_eq_of_sameWords h

end Pieces

/-! ### Configured dialects -/

/-- A name between quotes, where every quote in it stands twice. -/
def quotedBy (quote : Char) (name : String) : String :=
  String.ofList
    (quote :: name.toList.flatMap (fun c => if c = quote then [c, c] else [c]) ++ [quote])

/-- The spelling of placeholders and identifiers by a style and a quote. -/
def Spelling.of (style : PlaceholderStyle) (quote : Char) : Spelling :=
  ⟨style.placeholder, quotedBy quote⟩

theorem Dialect.doubleQuotes_eq (quote : Char) (cs : List Char) :
    doubleQuotes quote cs = cs.flatMap fun c => if c = quote then [c, c] else [c] := by
  induction cs with
  | nil => rfl
  | cons c cs ih =>
    rw [doubleQuotes, ih, List.flatMap_cons]
    split
    · rename_i hquote
      rw [hquote]
      rfl
    · rfl

theorem Dialect.spelling_eq (d : Dialect) :
    d.spelling = .of d.placeholderStyle d.identifierQuote := by
  have hidentifier : d.quoteIdentifier = quotedBy d.identifierQuote := by
    funext name
    rw [quoteIdentifier, doubleQuotes_eq, quotedBy]
  rw [spelling, hidentifier]
  rfl

namespace DialectConfig

/-- The spelling that a configuration asks for: its overrides, and what it does not override as its
base spells it. -/
def spelling (config : DialectConfig) : Spelling :=
  .of (config.placeholder?.getD config.kind.dialect.placeholderStyle)
    (config.identifierQuote?.getD config.kind.dialect.identifierQuote)

theorem dialect_of_toDialect {config : DialectConfig} {d : Dialect}
    (h : config.toDialect = .ok d) : d = config.dialect := by
  unfold toDialect at h
  split at h
  · split at h
    · exact (Except.ok.inj h).symm
    · cases h
  · exact (Except.ok.inj h).symm

theorem sameWords_dialect (config : DialectConfig) :
    config.dialect.SameWords config.kind.dialect :=
  ⟨rfl, rfl, rfl, rfl, rfl, rfl, rfl, rfl⟩

end DialectConfig

/--
**A configured dialect changes only the spelling.** For every configuration that is accepted and
every statement, the configured dialect lays out the pieces of its base, with the same parameters,
and its text is these pieces with identifiers between the configured quotes, every quote in them
doubled, and with placeholders of the configured style; the text for the base is the same pieces in
the base's own spelling. Where nothing is overridden, or only by what the base has itself, the text
is that for the base.
-/
theorem compile_toDialect {config : DialectConfig} {d : Dialect} (hd : config.toDialect = .ok d)
    (s : Statement) :
    s.pieces d = s.pieces config.kind.dialect ∧
      (s.compile d).parameters = (s.compile config.kind.dialect).parameters ∧
      s.compile d = s.compileIn config.kind.dialect config.spelling ∧
      s.compile config.kind.dialect =
        s.compileIn config.kind.dialect
          (.of config.kind.dialect.placeholderStyle config.kind.dialect.identifierQuote) ∧
      ((∀ quote ∈ config.identifierQuote?, quote = config.kind.dialect.identifierQuote) →
        (∀ style ∈ config.placeholder?, style = config.kind.dialect.placeholderStyle) →
        s.compile d = s.compile config.kind.dialect) := by
  obtain rfl := DialectConfig.dialect_of_toDialect hd
  have hpieces : s.pieces config.dialect = s.pieces config.kind.dialect :=
    s.pieces_eq_of_sameWords config.sameWords_dialect
  have hconfigured : s.compile config.dialect =
      s.compileIn config.kind.dialect config.spelling := by
    rw [← s.compileIn_spelling, Dialect.spelling_eq, Statement.compileIn, hpieces]
    rfl
  have hbase : s.compile config.kind.dialect = s.compileIn config.kind.dialect
      (.of config.kind.dialect.placeholderStyle config.kind.dialect.identifierQuote) := by
    rw [← s.compileIn_spelling, Dialect.spelling_eq]
  refine ⟨hpieces, congrArg Piece.parameters hpieces, hconfigured, hbase, fun hquote hstyle => ?_⟩
  rw [hconfigured, hbase, DialectConfig.spelling]
  have hstyle' : config.placeholder?.getD config.kind.dialect.placeholderStyle =
      config.kind.dialect.placeholderStyle := by
    cases hoverride : config.placeholder? with
    | none => rfl
    | some style => exact hstyle style hoverride
  have hquote' : config.identifierQuote?.getD config.kind.dialect.identifierQuote =
      config.kind.dialect.identifierQuote := by
    cases hoverride : config.identifierQuote? with
    | none => rfl
    | some quote => exact hquote quote hoverride
  rw [hstyle', hquote']

/-- MySQL with numbered placeholders and the quotes of the standard. -/
def standardMysql : DialectConfig :=
  ⟨.mysql, some .numbered, some '"'⟩

theorem compile_toDialect_standardMysql :
    standardMysql.toDialect = .ok standardMysql.dialect ∧
      goodsByPrice.compile standardMysql.dialect =
        goodsByPrice.compileIn .mysql (.of .numbered '"') := by
  have haccepted : standardMysql.toDialect = .ok standardMysql.dialect := rfl
  exact ⟨haccepted, (compile_toDialect haccepted goodsByPrice).2.2.1⟩

/-- The placement of NULL is emulated as MySQL needs it. -/
example : (goodsByPrice.compile standardMysql.dialect).sql =
    "SELECT \"price\" FROM \"goods\" WHERE \"price\" > $1 " ++
      "ORDER BY (\"price\" + $2) IS NULL ASC, \"price\" + $3 ASC" := by
  rfl

end TypedSql
