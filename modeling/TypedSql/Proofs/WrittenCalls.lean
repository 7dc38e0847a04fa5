import TypedSql.Proofs.CallPieces
import TypedSql.Proofs.Rows

/-!
# Written calls

The calls that are read in the text of a statement are the calls of its tree, in the order of their
names: `Statement.callsIn_compile`. As the calls of a tree have their shapes, so have those of the
text; `calls_keep_shape` puts this together.
-/

namespace TypedSql

/-! ### Expressions -/

section Expressions

open Piece (WritesCalls Anything)

variable {d : Dialect}

/-- A binary operator writes the calls of its operands, after a call for each of them if they are
written in lower case. -/
theorem writesCalls_binary (hd : d.CallsByName) {l r : Expr} {op : BinaryOp} {qualify : Bool}
    (hl : WritesCalls d Stands (l.walk d.callMarks) (l.pieces d qualify))
    (hr : WritesCalls d Stands (r.walk d.callMarks) (r.pieces d qualify)) :
    WritesCalls d Stands ((Expr.binary l op r).walk d.callMarks)
      ((Expr.binary l op r).pieces d qualify) := by
  have hplain : WritesCalls d Stands (l.walk d.callMarks ++ r.walk d.callMarks)
      (Piece.enclosedIf (!l.isAtomic) (l.pieces d qualify) ++ .text (" " ++ op.sql ++ " ") ::
        Piece.enclosedIf (!r.isAtomic) (r.pieces d qualify)) :=
    (hl.enclosedIf hd _).and_text_then hd (Piece.followsText_operator op)
      (hr.enclosedIf hd _).follows
  cases op with
  | compare op =>
    rw [← List.append_nil (l.walk d.callMarks)] at hplain
    exact hplain
  | arithmetic op =>
    rw [← List.append_nil (l.walk d.callMarks)] at hplain
    exact hplain
  | pattern m =>
    rw [Expr.walk_pattern, Expr.pieces, BinaryOp.pieces, PatternMatch.pieces]
    split
    · exact .notice_cons _ (Piece.writesCalls_lowered hd m.negated hl hr)
    · exact hplain

theorem writesCalls_star (hd : d.CallsByName) :
    WritesCalls d (· = [.operator "*"]) [] [.text "*"] :=
  Piece.writesCalls_text hd (by decide) (by decide)

theorem writesCalls_distinct (hd : d.CallsByName) :
    WritesCalls d (· = [.word "DISTINCT"]) [] [.text "DISTINCT "] :=
  Piece.writesCalls_text hd (by decide) (by decide)

/-- The separator of a text aggregate as a clause is two tokens. -/
theorem writesCalls_separatorClause (hd : d.CallsByName) (text : String) :
    WritesCalls d (· = [.word "SEPARATOR", .quotedText text]) []
      [.text " SEPARATOR ", .quotedText text] := by
  have hlex : lex d.identifierQuote " SEPARATOR " = [.word "SEPARATOR"] :=
    (IsPlainText.lex_eq hd (by decide)).trans (by decide)
  have htokens : ∀ n, Piece.tokens d n [.text " SEPARATOR ", .quotedText text] =
      [.word "SEPARATOR", .quotedText text] := by
    intro n
    rw [Piece.tokens, hlex]
    rfl
  intro n
  rw [htokens n]
  refine ⟨_, .self (List.forall_mem_cons.2 ⟨isQuiet_of_isOrdinary hd (by decide), ?_⟩), rfl⟩
  exact List.forall_mem_singleton.2 ⟨by simp [parentheses], by rintro _ _ ⟨⟩⟩

/-- A shaped call is written as itself, and the calls in its arguments come after its name. -/
theorem Call.writesCalls (hd : d.CallsByName) {c : Call} (hc : c.IsShaped) {qualify : Bool}
    (h : ∀ a ∈ c.arguments, WritesCalls d Stands (a.walk d.callMarks) (a.pieces d qualify)) :
    WritesCalls d Stands
      ((d.functionName c.function, c) :: c.arguments.flatMap (Expr.walk d.callMarks))
      (c.pieces d qualify) := by
  have hlaid := hc.laidOut d qualify
  generalize c.pieces d qualify = ps at hlaid ⊢
  cases hlaid with
  | star => exact (writesCalls_star hd).callPieces hd .count (by rintro _ rfl; exact read_star)
  | distinct e =>
    have hvalue : WritesCalls d (fun ts => ∃ us, Stands us ∧ ts = .word "DISTINCT" :: us)
        (e.walk d.callMarks) (.text "DISTINCT " :: e.pieces d qualify) :=
      (writesCalls_distinct hd).append (h e (by simp)) fun ts us hts hus => ⟨us, hus, hts ▸ rfl⟩
    rw [List.flatMap_singleton]
    refine hvalue.callPieces hd .count ?_
    rintro _ ⟨us, hus, rfl⟩
    rw [read_distinct hus]
    rfl
  | separator hseparator e text =>
    have hvalue : WritesCalls d
        (fun ts => ∃ us, Stands us ∧ ts = us ++ [.word "SEPARATOR", .quotedText text])
        (e.walk d.callMarks ++ [])
        (e.pieces d qualify ++ [.text " SEPARATOR ", .quotedText text]) :=
      (h e (by simp)).append (writesCalls_separatorClause hd text)
        fun us _ hus hts => ⟨us, hus, hts ▸ rfl⟩
    refine hvalue.callPieces hd .stringAgg ?_
    rintro _ ⟨us, hus, rfl⟩
    rw [read_separator hus]
    simp [Call.written, Call.literal?, hseparator]
  | @plain f hplain e es =>
    have hliteral : literal? d ⟨f, false, e :: es⟩ = none := literal?_eq_none hplain
    refine (WritesCalls.commaSeparated hd h).callPieces hd f fun ts hts => ?_
    rw [read_joined hts]
    simp [Call.written, hliteral]

theorem Expr.writesCalls_of_call? (hd : d.CallsByName) {e : Expr} {c : Call} {qualify : Bool}
    (hc : e.call? = some c)
    (parts : ∀ a ∈ e.children, WritesCalls d Stands (a.walk d.callMarks) (a.pieces d qualify)) :
    WritesCalls d Stands (e.walk d.callMarks) (e.pieces d qualify) := by
  rw [e.walk_of_call? hc, e.pieces_eq_of_call? hc]
  refine Call.writesCalls hd (e.isShaped_of_call? hc) ?_
  cases e with
  | joinedText e separator =>
    cases hc
    exact List.forall_mem_cons.2 ⟨parts e (by simp [Expr.children]),
      List.forall_mem_singleton.2 (Piece.writesCalls_parameter _)⟩
  | rowCount | valueCount | apply | orElse | extremum =>
    cases hc
    exact parts
  | _ => cases hc

/-- An expression writes its calls and those in it, and is a value, if its parts do and its subquery
writes the calls in it. -/
theorem Expr.writesCalls_of_parts (hd : d.CallsByName) (e : Expr) (qualify : Bool)
    (parts : ∀ c ∈ e.children,
      WritesCalls d Stands (c.walk d.callMarks) (c.pieces d qualify))
    (query : ∀ s, e.query? = some s →
      WritesCalls d Anything (s.walk d.callMarks) (s.pieces d)) :
    WritesCalls d Stands (e.walk d.callMarks) (e.pieces d qualify) := by
  cases e with
  | column c => exact Piece.writesCalls_columnPieces hd qualify c
  | literal v type? => exact Piece.writesCalls_parameter v
  | negation e =>
    have he := (parts e (by simp [Expr.children])).enclosedIf hd (!e.isAtomic)
    exact (Piece.writesCalls_minus hd).and_then he.follows
  | complement e =>
    exact (parts e (by simp [Expr.children])).anything.opened hd (by decide)
  | nullTest e negated =>
    have he := (parts e (by simp [Expr.children])).enclosedIf hd (!e.isAtomic)
    exact he.and_text hd (by cases negated <;> decide)
  | binary l op r =>
    exact writesCalls_binary hd (parts l (by simp [Expr.children]))
      (parts r (by simp [Expr.children]))
  | junction kind es =>
    cases es with
    | nil => exact Piece.writesCalls_truthValue hd _
    | cons e es =>
      have hlex : lex d.identifierQuote (" " ++ kind.sql ++ " ") = [.word kind.sql] :=
        (IsPlainText.lex_eq hd (by cases kind <;> decide)).trans (by cases kind <;> decide)
      have hparts : ∀ c ∈ e :: es, WritesCalls d Stands (c.walk d.callMarks)
          (Piece.enclosedIf c.isJunction (c.pieces d qualify)) :=
        fun c hc => (parts c hc).enclosedIf hd _
      have hjoined := WritesCalls.separated hlex (List.forall_mem_singleton.2
        (isQuiet_of_isOrdinary hd (by cases kind <;> decide))) hparts
      rw [Expr.pieces, if_neg (by simp), partPieces_eq, Expr.walk, walkAll_eq]
      exact hjoined.imp fun ts hts => hts.stands (by cases kind <;> decide)
  | rowCount | valueCount | apply | orElse | extremum | joinedText =>
    exact writesCalls_of_call? hd rfl parts
  | listMembership e items negated =>
    cases items with
    | nil => exact Piece.writesCalls_truthValue hd _
    | cons item items =>
      have he := (parts e (by simp [Expr.children])).enclosedIf hd (!e.isAtomic)
      have hitems := (WritesCalls.commaSeparated hd
        fun c hc => parts c (List.mem_cons_of_mem _ hc)).anything.opened hd
          (Piece.opensText_membershipText negated)
      rw [Expr.pieces, if_neg (by simp), itemPieces_eq, List.append_assoc, Expr.walk, walkAll_eq,
        List.append_assoc]
      exact he.and_then hitems.follows
  | rowMembership e s negated =>
    have he := (parts e (by simp [Expr.children])).enclosedIf hd (!e.isAtomic)
    have hquery := (query s rfl).opened hd (Piece.opensText_membershipText negated)
    rw [Expr.pieces, List.append_assoc]
    exact he.and_then hquery.follows
  | range e low high negated =>
    have hlow := (parts low (by simp [Expr.children])).enclosedIf hd (!low.isAtomic)
    have hhigh := (parts high (by simp [Expr.children])).enclosedIf hd (!high.isAtomic)
    have he := (parts e (by simp [Expr.children])).enclosedIf hd (!e.isAtomic)
    exact (he.and_text_then hd (by cases negated <;> decide) hlow.follows).and_text_then hd
      (by decide) hhigh.follows
  | existence s negated =>
    exact (query s rfl).opened hd (by cases negated <;> decide)
  | quantified e op quantifier s =>
    have he := (parts e (by simp [Expr.children])).enclosedIf hd (!e.isAtomic)
    have hquery := Piece.writesCalls_opening hd op quantifier (query s rfl)
    rw [Expr.pieces, List.append_assoc, List.append_assoc, Expr.walk, List.append_assoc]
    exact he.and_then (List.append_assoc _ _ _ ▸ hquery.follows)

end Expressions

/-! ### Selects and statements -/

section Statements

open Piece (WritesCalls Anything)

variable {d : Dialect} (hd : d.CallsByName)
include hd

theorem writesCalls_columns (qualify : Bool) (cs : List Column) :
    WritesCalls d Anything [] (Piece.commaSeparated (cs.map (Column.pieces qualify))) := by
  have hcolumns : WritesCalls d (Joined [.mark ','] Stands cs.length) (cs.flatMap fun _ => [])
      (Piece.commaSeparated (cs.map (Column.pieces qualify))) :=
    .commaSeparated hd fun c _ => Piece.writesCalls_columnPieces hd qualify c
  rw [List.flatMap_eq_nil_iff.2 fun _ _ => rfl] at hcolumns
  exact hcolumns.anything

theorem writesCalls_namePieces (t : Table) : WritesCalls d Stands [] t.namePieces := by
  unfold Table.namePieces
  split
  · exact (Piece.writesCalls_identifier _).and_text_then hd (by decide)
      (Piece.writesCalls_identifier _).follows
  · exact Piece.writesCalls_identifier _

theorem writesCalls_alias (alias? : Option String) : WritesCalls d Anything []
    (match alias? with
      | some name => [.text " AS ", .identifier name]
      | none => []) := by
  cases alias? with
  | none => exact .nil trivial
  | some name => exact .text_cons hd (by decide) (Piece.writesCalls_identifier name).anything

theorem writesCalls_sourcePieces (t : Table) : WritesCalls d Anything [] t.sourcePieces :=
  (writesCalls_namePieces hd t).anything.beside (writesCalls_alias hd _)

theorem writesCalls_conditionClause {keyword : String} (hkeyword : IsOrdinaryText keyword)
    {layout : Expr → List Piece} {e? : Option Expr}
    (h : ∀ e ∈ e?.toList, WritesCalls d Stands (e.walk d.callMarks) (layout e)) :
    WritesCalls d Anything (e?.toList.flatMap (Expr.walk d.callMarks))
      (clausePieces keyword (e?.map layout)) := by
  cases e? with
  | none => exact .nil trivial
  | some e =>
    rw [Option.toList_some, List.flatMap_singleton]
    exact (h e (by simp)).anything.text_cons hd hkeyword

theorem SortKey.writesCalls (k : SortKey) (qualify : Bool)
    (h : WritesCalls d Stands (k.expr.walk d.callMarks) (k.expr.pieces d qualify)) :
    WritesCalls d Anything
      (Piece.keyView (!d.supportsNullPlacement) k.nulls? (k.expr.walk d.callMarks))
      (k.pieces d qualify) := by
  obtain ⟨e, direction, nulls?⟩ := k
  have hsorted : WritesCalls d Stands (e.walk d.callMarks)
      (e.pieces d qualify ++ [.text (" " ++ direction.sql)]) :=
    h.and_text hd (by cases direction <;> decide)
  cases nulls? with
  | none => exact hsorted.anything
  | some nulls =>
    simp only [SortKey.pieces, sortKeyPieces, Piece.keyView]
    cases hplacement : d.supportsNullPlacement with
    | true => exact (hsorted.and_text hd (by cases nulls <;> decide)).anything
    | false =>
      exact .notice_cons _ ((h.enclosedIf hd _).anything.beside
        (hsorted.anything.text_cons hd (by cases nulls <;> decide)))

theorem writesCalls_orderPieces (ks : List SortKey) (qualify : Bool)
    (h : ∀ k ∈ ks, WritesCalls d Stands (k.expr.walk d.callMarks) (k.expr.pieces d qualify)) :
    WritesCalls d Anything
      (ks.flatMap fun k =>
        Piece.keyView (!d.supportsNullPlacement) k.nulls? (k.expr.walk d.callMarks))
      (orderPieces (ks.map (SortKey.pieces d qualify))) := by
  cases ks with
  | nil => exact .nil trivial
  | cons k ks =>
    exact (WritesCalls.commaSeparated hd fun k hk =>
      k.writesCalls hd qualify (h k hk)).anything.text_cons hd (by decide)

/-- The number of a limit or an offset is no name of a function. -/
theorem writesCalls_numbered {keyword w : String} (hkeyword : IsPlainText keyword)
    (hrun : Lexer.run '"' .idle keyword.toList = ([.word w], .idle)) (hw : w ∈ reservedWords)
    (n : Nat) : WritesCalls d Anything [] [.text (keyword ++ toString n)] := by
  have hplain := IsPlainText.append hkeyword (isPlainWord_toString n).isPlainText
  have hlex := (hplain.lex_eq hd).trans (lex_numbered DialectKind.generic.isPlain.quote hrun n)
  refine .text ?_ trivial
  rw [hlex]
  refine List.forall_mem_cons.2 ⟨isQuiet_of_isOrdinary hd (by simpa [Token.isOrdinary] using hw),
    List.forall_mem_singleton.2 ⟨by simp [parentheses], fun name hname heq => ?_⟩⟩
  cases heq
  exact Bool.eq_false_iff.1 (hd.isFunctionName hname).2 (all_isDigit_toString n)

theorem writesCalls_pagePieces (limit? offset? : Option Nat) :
    WritesCalls d Anything [] (pagePieces d limit? offset?) := by
  have hlimit : ∀ n : Nat, WritesCalls d Anything [] [.text (" LIMIT " ++ toString n)] :=
    writesCalls_numbered hd (by decide) rfl (by decide)
  have hoffset : WritesCalls d Anything []
      (offset?.map fun n => Piece.text (" OFFSET " ++ toString n)).toList := by
    cases offset? with
    | none => exact .nil trivial
    | some n => exact writesCalls_numbered hd (by decide) rfl (by decide) n
  cases limit? with
  | some n => exact (hlimit n).beside hoffset
  | none =>
    cases offset? with
    | none => exact .nil trivial
    | some m =>
      refine WritesCalls.beside (?_ : WritesCalls d Anything [] _) hoffset
      cases hs : d.unboundedLimit? with
      | none => exact .nil trivial
      | some s => exact .text (hd.unbounded s hs) trivial

theorem Join.writesCalls (j : Join) (qualify : Bool)
    (h : ∀ e ∈ j.condition?.toList,
      WritesCalls d Stands (e.walk d.callMarks) (e.pieces d qualify)) :
    WritesCalls d Anything (j.condition?.toList.flatMap (Expr.walk d.callMarks))
      (j.pieces d qualify) := by
  cases j with
  | on kind t condition =>
    have hsource := (writesCalls_sourcePieces hd t).text_cons hd
      (s := " " ++ kind.sql ++ " ") (by cases kind <;> decide)
    have hcondition := (h condition (by simp [Join.condition?])).anything.text_cons hd
      (s := " ON ") (by decide)
    simpa [Join.condition?, Join.pieces] using hsource.beside hcondition
  | cross t => exact (writesCalls_sourcePieces hd t).text_cons hd (by decide)

/-- A result column writes the calls of its expression. -/
theorem Projection.writesCalls (p : Projection) (qualify : Bool)
    (h : WritesCalls d Stands (p.expr.walk d.callMarks) (p.expr.pieces d qualify)) :
    WritesCalls d Anything (p.expr.walk d.callMarks) (p.pieces d qualify) := by
  have hall := h.anything.beside (writesCalls_alias hd p.alias?)
  rw [List.append_nil] at hall
  exact hall

/-- A select writes the calls in its clauses if their expressions do. -/
theorem Select.writesCalls_of_clauses (s : Select)
    (clauses : ∀ e ∈ s.clauseExprs, ∀ qualify,
      WritesCalls d Stands (e.walk d.callMarks) (e.pieces d qualify)) :
    WritesCalls d Anything (s.walk d.callMarks) (s.pieces d) := by
  obtain ⟨hprojections, hjoins, hfilter, hhaving, horder⟩ :=
    s.forall_clauseExprs.1 fun e he => clauses e he s.qualifies
  have hdistinct : WritesCalls d Anything []
      (if s.distinct then [.text "DISTINCT "] else []) := by
    split
    · exact Piece.writesCalls_ordinary hd (by decide)
    · exact .nil trivial
  have hcolumns : WritesCalls d Anything (s.projections.flatMap fun p => p.expr.walk d.callMarks)
      (Piece.commaSeparated (resultColumns s.qualifies s.source
        (s.projections.map (Projection.pieces d s.qualifies)))) := by
    cases hlist : s.projections with
    | nil => exact writesCalls_columns hd _ _
    | cons p ps =>
      rw [hlist] at hprojections
      exact (WritesCalls.commaSeparated hd fun p hp =>
        p.writesCalls hd s.qualifies (hprojections p hp)).anything
  have hgroup : WritesCalls d Anything [] (clausePieces " GROUP BY "
      (if s.groupBy.isEmpty then none
        else some (Piece.commaSeparated (s.groupBy.map (Column.pieces s.qualifies))))) := by
    split
    · exact .nil trivial
    · exact (writesCalls_columns hd _ _).text_cons hd (by decide)
  have hselect := (hdistinct.text_cons hd (s := "SELECT ") (by decide)).beside hcolumns
  have hsource := (writesCalls_sourcePieces hd s.source).text_cons hd (s := " FROM ") (by decide)
  have hjoin := WritesCalls.flatMap fun (j : Join) hj => j.writesCalls hd s.qualifies (hjoins j hj)
  have hwhere : WritesCalls d Anything _
      (clausePieces " WHERE " (s.filter?.map (Expr.pieces d s.qualifies))) :=
    writesCalls_conditionClause hd (by decide) hfilter
  have hhave : WritesCalls d Anything _
      (clausePieces " HAVING " (s.having?.map (Expr.pieces d s.qualifies))) :=
    writesCalls_conditionClause hd (by decide) hhaving
  have horders := writesCalls_orderPieces hd s.orderBy s.qualifies horder
  have hpage := writesCalls_pagePieces hd s.limit? s.offset?
  have hall := (((((((hselect.beside hsource).beside hjoin).beside hwhere).beside hgroup).beside
    hhave).beside horders).beside hpage)
  simp only [List.nil_append, List.append_nil] at hall
  rw [Select.pieces_eq, Select.walk_eq]
  exact hall

/-- **An expression writes its calls and those in it**, and is a value. -/
theorem Expr.writesCalls (e : Expr) (qualify : Bool) :
    WritesCalls d Stands (e.walk d.callMarks) (e.pieces d qualify) :=
  Expr.induction
    (P := fun e => ∀ qualify, WritesCalls d Stands (e.walk d.callMarks) (e.pieces d qualify))
    (Q := fun s => WritesCalls d Anything (s.walk d.callMarks) (s.pieces d))
    (fun e parts query qualify =>
      e.writesCalls_of_parts hd qualify (fun c hc => parts c hc qualify) query)
    (fun s clauses => s.writesCalls_of_clauses hd clauses) e qualify

theorem Select.writesCalls (s : Select) :
    WritesCalls d Anything (s.walk d.callMarks) (s.pieces d) :=
  s.writesCalls_of_clauses hd fun e _ => e.writesCalls hd

theorem writesCalls_filterPieces (e? : Option Expr) :
    WritesCalls d Anything (walkClause d.callMarks e?)
      (clausePieces " WHERE " (conditionPieces d false e?)) := by
  rw [walkClause_eq, conditionPieces_eq]
  exact writesCalls_conditionClause hd (by decide) fun e _ => e.writesCalls hd false

theorem writesCalls_returningPieces (columns : List Column) :
    WritesCalls d Anything [] (returningPieces d columns) := by
  have hlist := (writesCalls_columns hd false columns).text_cons hd (s := " RETURNING ")
    (by decide)
  unfold returningPieces
  split
  · exact .nil trivial
  · split
    · exact hlist
    · exact .notice_cons _ hlist

theorem CompoundSelect.writesCalls (c : CompoundSelect) :
    WritesCalls d Anything (c.walk d.callMarks) (c.pieces d) := by
  have hmembers : WritesCalls d Anything (c.rest.flatMap fun m => m.2.walk d.callMarks)
      (memberPieces d c.rest) :=
    .flatMap fun m _ => (m.2.writesCalls hd).text_cons hd (by cases m.1 <;> decide)
  have horder := writesCalls_orderPieces hd c.orderBy false fun k _ => k.expr.writesCalls hd false
  have hall := (((c.first.writesCalls hd).beside hmembers).beside horder).beside
    (writesCalls_pagePieces hd c.limit? c.offset?)
  rw [List.append_nil, ← sortPieces_eq] at hall
  rw [CompoundSelect.walk, walkSortKeys_eq, CompoundSelect.members, List.flatMap_cons,
    List.flatMap_map]
  exact hall

/-- The rows of an insert and its columns before them are in parentheses. -/
theorem Insert.writesCalls (i : Insert) :
    WritesCalls d Anything (i.walk d.callMarks) (i.pieces d) := by
  have hsplit : ∀ n, Piece.tokens d n (i.pieces d) =
      Piece.tokens d n ((.text "INSERT INTO " :: i.table.namePieces) ++
        (.text " (" :: Piece.commaSeparated (i.columns.map (Column.pieces false)) ++ [.text ")"]) ++
        (.text " VALUES " :: Piece.commaSeparated (i.rows.map (rowPieces d))) ++
        returningPieces d i.returning) := by
    have hlex : lex d.identifierQuote ") VALUES " =
        lex d.identifierQuote ")" ++ lex d.identifierQuote " VALUES " := by
      rw [IsPlainText.lex_eq hd, IsPlainText.lex_eq hd, IsPlainText.lex_eq hd] <;> decide
    intro n
    simp [Insert.pieces, Piece.tokens, Piece.tokens_append, hlex, Piece.parameters,
      Piece.parameter?]
  have hrow : ∀ row : List Expr,
      WritesCalls d Stands (row.flatMap (Expr.walk d.callMarks)) (rowPieces d row) := by
    intro row
    rw [rowPieces, itemPieces_eq]
    exact (WritesCalls.commaSeparated hd fun e _ => e.writesCalls hd false).anything.opened hd
      (by decide)
  have hname := (writesCalls_namePieces hd i.table).anything.text_cons hd (s := "INSERT INTO ")
    (by decide)
  have hcolumns := ((writesCalls_columns hd false i.columns).opened hd (s := " (")
    (by decide)).anything
  have hrows := (WritesCalls.commaSeparated hd fun row (_ : row ∈ i.rows) =>
    hrow row).anything.text_cons hd (s := " VALUES ") (by decide)
  have hall := ((hname.beside hcolumns).beside hrows).beside
    (writesCalls_returningPieces hd i.returning)
  rw [List.append_nil] at hall
  intro n
  rw [hsplit n]
  exact hall n

theorem Update.writesCalls (u : Update) :
    WritesCalls d Anything (u.walk d.callMarks) (u.pieces d) := by
  have hassignment : ∀ a : Column × Expr,
      WritesCalls d Stands (a.2.walk d.callMarks) (assignmentPieces d a) := fun a =>
    (Piece.writesCalls_columnPieces hd false a.1).and_text_then hd (by decide)
      (a.2.writesCalls hd false).follows
  have htable := (writesCalls_sourcePieces hd u.table).text_cons hd (s := "UPDATE ") (by decide)
  have hassignments := (WritesCalls.commaSeparated hd fun a (_ : a ∈ u.assignments) =>
    hassignment a).anything.text_cons hd (s := " SET ") (by decide)
  have hall := ((htable.beside hassignments).beside (writesCalls_filterPieces hd u.filter?)).beside
    (writesCalls_returningPieces hd u.returning)
  rw [List.append_nil] at hall
  exact hall

theorem Delete.writesCalls (x : Delete) :
    WritesCalls d Anything (x.walk d.callMarks) (x.pieces d) := by
  have htable := (writesCalls_sourcePieces hd x.table).text_cons hd (s := "DELETE FROM ")
    (by decide)
  have hall := (htable.beside (writesCalls_filterPieces hd x.condition?)).beside
    (writesCalls_returningPieces hd x.returning)
  rw [List.append_nil] at hall
  exact hall

theorem Statement.writesCalls (s : Statement) :
    WritesCalls d Anything (s.calls d) (s.pieces d) := by
  cases s with
  | select s => exact s.writesCalls hd
  | compound c => exact c.writesCalls hd
  | insert i _ => exact i.writesCalls hd
  | update u _ => exact u.writesCalls hd
  | delete x _ => exact x.writesCalls hd

/-- **The calls in the text of a statement are its calls**, in order. -/
theorem Statement.callsIn_compile (s : Statement) :
    callsIn d.callNames (lex d.identifierQuote (s.compile d).sql) =
      (s.calls d).map fun p => p.2.written d p.1 := by
  obtain ⟨out, hshows, -⟩ := s.writesCalls hd 1
  have hcalls := hshows.calls []
  rw [List.append_nil] at hcalls
  rw [Statement.lex_compile hd.toIsPlain, hcalls]
  exact List.append_nil _

end Statements

/-! ### Dialects -/

/-- A configured dialect writes the names of functions for nothing else, if its quote is the start
of nothing else. -/
theorem DialectConfig.callsByName (config : DialectConfig)
    (hquote : Lexer.IsQuote config.dialect.identifierQuote) : config.dialect.CallsByName where
  quote := hquote
  functionName := config.kind.isPlain.functionName
  booleanLiteral := config.kind.isPlain.booleanLiteral
  unboundedLimit := config.kind.isPlain.unboundedLimit
  names := by
    change ∀ f, IsFunctionName (config.kind.dialect.functionName f)
    cases config.kind <;> intro f <;> cases f <;> decide
  truthValues := by
    change ∀ b, config.kind.dialect.booleanLiteral b ∉
      "DISTINCT" :: config.kind.dialect.callNames
    cases config.kind <;> decide
  unbounded := by
    have hgeneric : ∀ s, config.kind.dialect.unboundedLimit? = some s →
        IsPlainText (" LIMIT " ++ s) ∧
          ∀ t ∈ lex '"' (" LIMIT " ++ s), IsQuiet config.kind.dialect.callNames t := by
      cases config.kind <;> rintro s ⟨⟩ <;> decide
    intro s hs
    obtain ⟨hplain, hquiet⟩ := hgeneric s hs
    rw [lex_eq_of_isPlainText hquote DialectKind.generic.isPlain.quote hplain]
    exact hquiet

theorem DialectKind.callsByName (k : DialectKind) : k.dialect.CallsByName :=
  DialectConfig.callsByName ⟨k, none, none⟩ k.isPlain.quote

/-! ### The shape of written calls -/

/-- The function of one argument that has the name of a choice by order where a dialect has one name
for both. -/
def Extremum.aggregate : Extremum → SqlFunction
  | .greatest => .max
  | .least => .min

/-- The shape that calls have in a text: `*` is the one argument of `COUNT`, and so is a value after
`DISTINCT`; all other arguments are values. -/
structure WrittenCall.IsShaped (d : Dialect) (w : WrittenCall) : Prop where
  star : .star ∈ w.arguments → w.name = d.functionName .count ∧ w.arguments = [.star]
  distinct : .distinct ∈ w.arguments → w.name = d.functionName .count ∧ w.arguments = [.distinct]
  ne_nil : w.arguments ≠ []
  known : .other ∉ w.arguments

section Shape

variable {d : Dialect} {c : Call} {name : String}

/-- A call without a literal is written with its arguments. -/
theorem Call.length_arguments_written (hne : c.arguments ≠ []) (hliteral : c.literal? d = none) :
    (c.written d name).arguments.length = c.arguments.length := by
  simp [written, hne, hliteral]

/-- A shaped call is `COUNT` of `*` or of distinct values, or has values as arguments. -/
theorem Call.IsShaped.arguments_written (hc : c.IsShaped) (d : Dialect) (name : String) :
    c.function = .count ∧ ((c.written d name).arguments = [.star] ∨
        (c.written d name).arguments = [.distinct]) ∨
      (c.written d name).arguments ≠ [] ∧ ∀ a ∈ (c.written d name).arguments, a = .value := by
  have hlaid := hc.laidOut d false
  generalize c.pieces d false = ps at hlaid
  cases hlaid with
  | star => exact .inl ⟨rfl, .inl rfl⟩
  | distinct e => exact .inl ⟨rfl, .inr rfl⟩
  | separator hseparator e text => exact .inr (by simp [Call.written, Call.literal?, hseparator])
  | @plain f hplain e es =>
    have hliteral : literal? d ⟨f, false, e :: es⟩ = none := literal?_eq_none hplain
    exact .inr (by simp [Call.written, hliteral])

/-- The shape of a call shows in its text. -/
theorem Call.IsShaped.written (hc : c.IsShaped)
    (hname : name = d.functionName c.function ∨ name = "LOWER" ∧ c.function = .lower) :
    (c.written d name).IsShaped d := by
  obtain ⟨hcount, harguments⟩ | ⟨hne, hvalues⟩ := hc.arguments_written d name
  · have hname : name = d.functionName .count := by
      obtain hname | ⟨-, hlower⟩ := hname
      · exact hcount ▸ hname
      · exact SqlFunction.noConfusion (hcount.symm.trans hlower)
    obtain harguments | harguments := harguments
    · exact ⟨fun _ => ⟨hname, harguments⟩, by simp [harguments], by simp [harguments],
        by simp [harguments]⟩
    · exact ⟨by simp [harguments], fun _ => ⟨hname, harguments⟩, by simp [harguments],
        by simp [harguments]⟩
  · exact ⟨fun h => WrittenArgument.noConfusion (hvalues _ h),
      fun h => WrittenArgument.noConfusion (hvalues _ h), hne,
      fun h => WrittenArgument.noConfusion (hvalues _ h)⟩

/-- One name is that of an aggregate and of a choice by order, and of no other function. -/
theorem sqlite_functionName_eq_iff (f : Extremum) (g : SqlFunction) :
    Dialect.sqlite.functionName g = Dialect.sqlite.functionName f.function ↔
      g = f.aggregate ∨ g = f.function := by
  cases f <;> cases g <;> decide

/-- Where a dialect has one name for an aggregate and a choice by order, they are told apart by the
number of their arguments. -/
theorem Call.IsShaped.length_arguments_iff (hc : c.IsShaped)
    (hsqlite : d.functionName = Dialect.sqlite.functionName)
    (hname : name = d.functionName c.function ∨ name = "LOWER" ∧ c.function = .lower)
    {f : Extremum} (hf : name = d.functionName f.function) :
    ((c.written d name).arguments.length = 1 ↔ c.function = f.aggregate) ∧
      (2 ≤ (c.written d name).arguments.length ↔ c.function = f.function) := by
  have hfunction : c.function = f.aggregate ∨ c.function = f.function := by
    rw [hsqlite] at hname hf
    obtain hname | ⟨hlower, -⟩ := hname
    · exact (sqlite_functionName_eq_iff f c.function).1 (hname.symm.trans hf)
    · have hne : "LOWER" ≠ Dialect.sqlite.functionName f.function := by cases f <;> decide
      exact absurd (hlower.symm.trans hf) hne
  have harity := hc.arity
  have hliteral : c.literal? d = none := by
    refine literal?_eq_none fun haggregate => absurd hfunction ?_
    cases f <;> simp [haggregate, Extremum.aggregate, Extremum.function]
  have hne : c.arguments ≠ [] := fun hnil => by
    have hcount := (hc.eq_count_of_nil hnil).1
    cases f <;> simp [hcount, Extremum.aggregate, Extremum.function] at hfunction
  rw [length_arguments_written hne hliteral]
  obtain hfunction | hfunction := hfunction
  · have hone : c.arguments.length = 1 := by
      cases f <;> simpa [hfunction, Extremum.aggregate, SqlFunction.Takes] using harity
    cases f <;> simp [hfunction, hone, Extremum.aggregate, Extremum.function]
  · have htwo : 2 ≤ c.arguments.length := by
      cases f <;> simpa [hfunction, Extremum.function, SqlFunction.Takes] using harity
    have hone : c.arguments.length ≠ 1 := by omega
    cases f <;> simp [hfunction, htwo, hone, Extremum.aggregate, Extremum.function]

end Shape

/-- **Calls keep their shape.** What a public function makes as a call is this call, and all calls
anywhere in what is built have been made so. Expressions that are calls are shaped, are laid out in
all dialects as shaped calls are, and a text aggregate always has the literal that a dialect may
need as a separator. All calls written for a statement are shaped. Where a dialect calls by name,
the calls that are read in the text of a statement are these: `*` is the one argument of a `COUNT`,
`DISTINCT` is in a `COUNT` and before its one argument, and every other argument is a value. Where
the names are those of SQLite, a call with the name of a choice by order has one argument if it is
the aggregate, and several if it is the choice. Configured dialects call by name unless their quote
is the start of something else. -/
theorem calls_keep_shape :
    (∀ (c : Call) (e : Expr), c.Made e → e.call? = some c) ∧
      (∀ (tables : Set Table) (e : Expr), e.Built tables →
        e.Everywhere Expr.IsMade fun _ => True) ∧
      (∀ (tables : Set Table) (s : Statement), s.Built tables →
        s.Everywhere Expr.IsMade fun _ => True) ∧
      (∀ (e : Expr) (c : Call), e.call? = some c →
        c.IsShaped ∧ ∀ d, ¬ c.LacksSeparator d ∧ ∀ qualify,
          e.pieces d qualify = c.pieces d qualify ∧ c.LaidOut d qualify (c.pieces d qualify)) ∧
      (∀ (d : Dialect) (s : Statement), ∀ p ∈ s.calls d,
        p.2.IsShaped ∧ ¬ p.2.LacksSeparator d) ∧
      (∀ d : Dialect, d.CallsByName → ∀ s : Statement,
        callsIn d.callNames (lex d.identifierQuote (s.compile d).sql) =
            (s.calls d).map (fun p => p.2.written d p.1) ∧
          ∀ w ∈ callsIn d.callNames (lex d.identifierQuote (s.compile d).sql), w.IsShaped d) ∧
      (∀ d : Dialect, d.functionName = Dialect.sqlite.functionName →
        ∀ (s : Statement) (f : Extremum), ∀ p ∈ s.calls d, p.1 = d.functionName f.function →
          ((p.2.written d p.1).arguments.length = 1 ↔ p.2.function = f.aggregate) ∧
            (2 ≤ (p.2.written d p.1).arguments.length ↔ p.2.function = f.function)) ∧
      (∀ config : DialectConfig, Lexer.IsQuote config.dialect.identifierQuote →
        config.dialect.CallsByName) ∧
      ∀ k : DialectKind, k.dialect.CallsByName := by
  have hnodes : ∀ (d : Dialect) (s : Statement), ∀ p ∈ s.calls d, p.2.IsShaped ∧
      (p.1 = d.functionName p.2.function ∨ p.1 = "LOWER" ∧ p.2.function = .lower) :=
    fun d s p hp => Statement.isShaped_of_mem_calls hp
  refine ⟨fun c e => Call.Made.call?_eq,
    fun tables e he => he.everywhere.imp (fun _ => Expr.IsHeld.isMade) fun _ _ => trivial,
    fun tables s hs => hs.everywhere.imp (fun _ => Expr.IsHeld.isMade) fun _ _ => trivial,
    fun e c hc => ?_,
    fun d s p hp => ⟨(hnodes d s p hp).1, (hnodes d s p hp).1.not_lacksSeparator d⟩,
    fun d hd s => ?_, fun d hsqlite s f p hp hf => ?_, DialectConfig.callsByName,
    DialectKind.callsByName⟩
  · have hshaped := e.isShaped_of_call? hc
    exact ⟨hshaped, fun d => ⟨hshaped.not_lacksSeparator d, fun qualify =>
      ⟨e.pieces_eq_of_call? hc d qualify, hshaped.laidOut d qualify⟩⟩⟩
  · have hcalls := s.callsIn_compile hd
    refine ⟨hcalls, ?_⟩
    rw [hcalls]
    exact List.forall_mem_map.2 fun p hp => (hnodes d s p hp).1.written (hnodes d s p hp).2
  · exact (hnodes d s p hp).1.length_arguments_iff hsqlite (hnodes d s p hp).2 hf

/-- The higher of the highest price in stock and a number. -/
def highestPrice : Expr :=
  .extremum .greatest (.apply .max (.column stockPrice)) (.literal (.int 10) (some .integer)) []

theorem built_highestPrice : highestPrice.Built {stock} := by
  have hmax : Expr.call .max (.column stockPrice) = .ok (.apply .max (.column stockPrice)) := rfl
  have hpick : Expr.pick .greatest (.apply .max (.column stockPrice)) [.value (.int 10)] =
      .ok highestPrice := rfl
  refine .pick (.call (.column ⟨stock, rfl, by decide⟩) hmax) ?_ hpick
  refine List.forall_mem_singleton.2 ?_
  rintro _ ⟨⟩

/-- What there is in stock: how many goods and titles, how high the prices are, and all titles. -/
def stockReport : Select :=
  { Select.ofTable stock with
    projections := [⟨.rowCount, none⟩, ⟨.valueCount true (.column stockTitle), none⟩,
      ⟨highestPrice, none⟩, ⟨.joinedText (.column stockTitle) ", ", none⟩] }

theorem built_stockReport : (Statement.select stockReport).Built {stock} := by
  have htitle : (Expr.column stockTitle).Built {stock} := .column ⟨stock, rfl, by decide⟩
  have htitles : (Expr.column stockTitle).stringAgg ", " =
      .ok (.joinedText (.column stockTitle) ", ") := rfl
  have hproject : (Select.ofTable stock).step (.project [.rowCount,
      .valueCount true (.column stockTitle), highestPrice,
      .joinedText (.column stockTitle) ", "]) = .ok stockReport := rfl
  refine .select (.step (.ofTable rfl) ?_ ?_ ?_ hproject)
  · exact List.forall_mem_cons.2 ⟨.rowCount, List.forall_mem_cons.2 ⟨.valueCount true htitle,
      List.forall_mem_cons.2 ⟨built_highestPrice,
        List.forall_mem_singleton.2 (.stringAgg htitle htitles)⟩⟩⟩
  · exact List.forall_mem_nil _
  · exact List.forall_mem_nil _

theorem calls_keep_shape_stockReport :
    highestPrice.Everywhere Expr.IsMade (fun _ => True) ∧
      (Statement.select stockReport).Everywhere Expr.IsMade (fun _ => True) ∧
      (∃ c : Call, c.Made highestPrice ∧ highestPrice.call? = some c ∧ c.IsShaped ∧
        ("MAX", c) ∈ (Statement.select stockReport).calls .sqlite ∧
        2 ≤ (c.written .sqlite "MAX").arguments.length) ∧
      callsIn Dialect.sqlite.callNames
          (lex '"' ((Statement.select stockReport).compile .sqlite).sql) =
        [⟨"COUNT", [.star], []⟩, ⟨"COUNT", [.distinct], []⟩, ⟨"MAX", [.value, .value], []⟩,
          ⟨"MAX", [.value], []⟩, ⟨"GROUP_CONCAT", [.value, .value], []⟩] ∧
      callsIn Dialect.mysql.callNames
          (lex '\x60' ((Statement.select stockReport).compile .mysql).sql) =
        [⟨"COUNT", [.star], []⟩, ⟨"COUNT", [.distinct], []⟩, ⟨"GREATEST", [.value, .value], []⟩,
          ⟨"MAX", [.value], []⟩, ⟨"GROUP_CONCAT", [.value], [", "]⟩] ∧
      (⟨.mysql, some .numbered, some '"'⟩ : DialectConfig).dialect.CallsByName := by
  obtain ⟨hmade, hexpr, hstatement, hnode, -, htext, hsqlite, hconfig, hkind⟩ := calls_keep_shape
  have hprice := hexpr _ _ built_highestPrice
  -- The choice by order is the third call, and the aggregate in it is the fourth.
  have hmem : ("MAX", _) ∈ (Statement.select stockReport).calls .sqlite :=
    .tail _ (.tail _ (.head _))
  refine ⟨hprice, hstatement _ _ built_stockReport,
    ⟨_, hprice.here _ rfl, hmade _ _ (hprice.here _ rfl), (hnode highestPrice _ rfl).1, hmem, ?_⟩,
    (htext .sqlite (hkind .sqlite) _).1.trans rfl, (htext .mysql (hkind .mysql) _).1.trans rfl,
    hconfig _ DialectKind.generic.isPlain.quote⟩
  exact (hsqlite .sqlite rfl _ .greatest _ hmem rfl).2.2 rfl

end TypedSql
