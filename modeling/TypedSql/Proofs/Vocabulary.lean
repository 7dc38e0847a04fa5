import TypedSql.Expr.Induction
import TypedSql.Statement.Pieces

/-!
# The vocabulary of a dialect

The fixed text of an expression or a select comes from a vocabulary that no name and no value
changes: keywords and operators, the spellings of the dialect, and the numbers of limits and
offsets. `Dialect.Says` is this vocabulary; `Statement.Says` adds the keywords of whole statements.
`Select.emitted_pieces` and `Statement.emitted_pieces` say that layouts have no other fixed text, and
that they quote texts only for a dialect that writes separators as literals. What holds of the
vocabulary holds of all that is written around names and values.
-/

namespace TypedSql

/-- The fixed texts of expressions and selects that are spelled alike in all dialects. -/
def keywords : List String :=
  ["(", ")", ", ", ".", " AS ", "-", "*", "NOT (", "LOWER(", ") LIKE LOWER(", ") NOT LIKE LOWER(",
    " IS NULL", " IS NOT NULL", " IS NULL DESC, ", " IS NULL ASC, ", " IN (", " NOT IN (",
    " BETWEEN ", " NOT BETWEEN ", " AND ", "EXISTS (", "NOT EXISTS (", " SEPARATOR ", "SELECT ",
    "DISTINCT ", " FROM ", " ON ", " WHERE ", " GROUP BY ", " HAVING ", " ORDER BY "]

/-- The keywords of whole statements. -/
def statementKeywords : List String :=
  ["INSERT INTO ", " (", ") VALUES ", "UPDATE ", " SET ", " = ", "DELETE FROM ", " RETURNING "]

/-- The fixed texts of expressions and selects for a dialect. -/
inductive Dialect.Says (d : Dialect) : String → Prop
  | keyword {s : String} (h : s ∈ keywords) : Says d s
  | operator (op : BinaryOp) : Says d (" " ++ op.sql ++ " ")
  | quantified (op : Comparison) (quantifier : Quantifier) :
      Says d (" " ++ op.sql ++ " " ++ quantifier.sql ++ " (")
  | connective (kind : Connective) : Says d (" " ++ kind.sql ++ " ")
  | functionName (f : SqlFunction) : Says d (d.functionName f)
  | truthValue (b : Bool) : Says d (d.booleanLiteral b)
  | join (kind : JoinKind) : Says d (" " ++ kind.sql ++ " ")
  | crossJoin : Says d (" " ++ crossJoinSql ++ " ")
  | direction (direction : Direction) : Says d (" " ++ direction.sql)
  | placement (nulls : NullPlacement) : Says d (" " ++ nulls.sql)
  | limit (n : Nat) : Says d (" LIMIT " ++ toString n)
  | unbounded {s : String} (h : d.unboundedLimit? = some s) : Says d (" LIMIT " ++ s)
  | offset (n : Nat) : Says d (" OFFSET " ++ toString n)

/-- The fixed texts of whole statements for a dialect. -/
inductive Statement.Says (d : Dialect) : String → Prop
  | inside {s : String} (h : d.Says s) : Says d s
  | keyword {s : String} (h : s ∈ statementKeywords) : Says d s
  | setOperator (op : SetOperator) : Says d (" " ++ op.sql ++ " ")

namespace Piece

/-- The fixed texts of pieces are of some kind, and texts are quoted only for a dialect that writes
separators as literals. -/
def Emitted (d : Dialect) (spoken : String → Prop) (ps : List Piece) : Prop :=
  (∀ s, .text s ∈ ps → spoken s) ∧ ∀ s, .quotedText s ∈ ps → d.separatorClause = true

section Combination

variable {d : Dialect} {spoken : String → Prop} {ps qs : List Piece} {s : String}

theorem Emitted.mono {spoken' : String → Prop} (h : Emitted d spoken ps)
    (hspoken : ∀ s, spoken s → spoken' s) : Emitted d spoken' ps :=
  ⟨fun s hs => hspoken s (h.1 s hs), h.2⟩

theorem Emitted.nil : Emitted d spoken [] := by
  constructor <;> simp

theorem Emitted.append (hps : Emitted d spoken ps) (hqs : Emitted d spoken qs) :
    Emitted d spoken (ps ++ qs) := by
  constructor <;> intro s hs <;> rcases List.mem_append.1 hs with hs | hs
  · exact hps.1 s hs
  · exact hqs.1 s hs
  · exact hps.2 s hs
  · exact hqs.2 s hs

theorem Emitted.text_cons (h : spoken s) (hps : Emitted d spoken ps) :
    Emitted d spoken (.text s :: ps) := by
  constructor
  · rintro t (_ | ⟨_, ht⟩)
    · exact h
    · exact hps.1 t ht
  · rintro t (_ | ⟨_, ht⟩)
    exact hps.2 t ht

theorem Emitted.text (h : spoken s) : Emitted d spoken [.text s] :=
  .text_cons h .nil

theorem Emitted.identifier (name : String) : Emitted d spoken [.identifier name] := by
  constructor <;> simp

theorem Emitted.parameter (v : Value) : Emitted d spoken [.parameter v] := by
  constructor <;> simp

theorem Emitted.quotedText (h : d.separatorClause = true) (t : String) :
    Emitted d spoken [.quotedText t] := by
  constructor <;> simp [h]

theorem Emitted.notice_cons (n : Notice) (hps : Emitted d spoken ps) :
    Emitted d spoken (.notice n :: ps) := by
  constructor
  · rintro t (_ | ⟨_, ht⟩)
    exact hps.1 t ht
  · rintro t (_ | ⟨_, ht⟩)
    exact hps.2 t ht

theorem Emitted.flatMap {α : Type} {items : List α} {layout : α → List Piece}
    (h : ∀ a ∈ items, Emitted d spoken (layout a)) : Emitted d spoken (items.flatMap layout) := by
  induction items with
  | nil => exact .nil
  | cons a items ih =>
    rw [List.flatMap_cons]
    exact (h a (by simp)).append (ih fun b hb => h b (List.mem_cons_of_mem _ hb))

theorem Emitted.separated (hs : spoken s) {items : List (List Piece)}
    (h : ∀ ps ∈ items, Emitted d spoken ps) : Emitted d spoken (separated s items) := by
  fun_induction Piece.separated s items with
  | case1 => exact .nil
  | case2 ps => exact h ps (by simp)
  | case3 ps qs rest ih =>
    exact (h ps (by simp)).append
      (.text_cons hs (ih fun qs hqs => h qs (List.mem_cons_of_mem _ hqs)))

end Combination

/-! ### The parts of a select -/

section Parts

variable {d : Dialect} {ps qs : List Piece}

theorem Emitted.parenthesized (hps : Emitted d d.Says ps) :
    Emitted d d.Says (parenthesized ps) :=
  (Emitted.text_cons (.keyword (by decide)) hps).append (.text (.keyword (by decide)))

theorem Emitted.enclosedIf (b : Bool) (hps : Emitted d d.Says ps) :
    Emitted d d.Says (enclosedIf b ps) := by
  cases b
  · exact hps
  · exact hps.parenthesized

theorem Emitted.commaSeparated {items : List (List Piece)}
    (h : ∀ ps ∈ items, Emitted d d.Says ps) : Emitted d d.Says (commaSeparated items) :=
  .separated (.keyword (by decide)) h

theorem Emitted.callPieces (f : SqlFunction) (hps : Emitted d d.Says ps) :
    Emitted d d.Says (callPieces d f ps) :=
  ((Emitted.text (.functionName f)).append (.text_cons (.keyword (by decide)) hps)).append
    (.text (.keyword (by decide)))

theorem emitted_columnPieces (qualify : Bool) (c : Column) :
    Emitted d d.Says (c.pieces qualify) := by
  cases qualify
  · exact .identifier _
  · exact (Emitted.identifier _).append (.text_cons (.keyword (by decide)) (.identifier _))

theorem emitted_columns (qualify : Bool) (cs : List Column) :
    ∀ ps ∈ cs.map (Column.pieces qualify), Emitted d d.Says ps :=
  List.forall_mem_map.2 fun c _ => emitted_columnPieces qualify c

theorem emitted_namePieces (t : Table) : Emitted d d.Says t.namePieces := by
  unfold Table.namePieces
  split
  · exact (Emitted.identifier _).append (.text_cons (.keyword (by decide)) (.identifier _))
  · exact .identifier _

theorem emitted_sourcePieces (t : Table) : Emitted d d.Says t.sourcePieces := by
  unfold Table.sourcePieces
  refine (emitted_namePieces t).append ?_
  split
  · exact .text_cons (.keyword (by decide)) (.identifier _)
  · exact .nil

theorem spoken_membershipText (negated : Bool) : d.Says (membershipText negated) := by
  cases negated
  · exact .keyword (by decide)
  · exact .keyword (by decide)

theorem emitted_binaryPieces {op : BinaryOp} {l r : Expr} (hps : Emitted d d.Says ps)
    (hqs : Emitted d d.Says qs) : Emitted d d.Says (op.pieces d l r ps qs) := by
  have hplain : Emitted d d.Says (Piece.enclosedIf (!l.isAtomic) ps ++
      .text (" " ++ op.sql ++ " ") :: Piece.enclosedIf (!r.isAtomic) qs) :=
    (hps.enclosedIf _).append (.text_cons (.operator op) (hqs.enclosedIf _))
  cases op with
  | compare op => exact hplain
  | arithmetic op => exact hplain
  | pattern m =>
    simp only [BinaryOp.pieces, PatternMatch.pieces]
    split
    · refine ((Emitted.notice_cons _ (.text_cons (.keyword (by decide)) hps)).append
        (.text_cons (.keyword ?_) hqs)).append (.text (.keyword (by decide)))
      cases m.negated <;> decide
    · exact hplain

theorem emitted_opening (op : Comparison) (quantifier : Quantifier) :
    Emitted d d.Says (quantifier.opening d op) := by
  unfold Quantifier.opening
  split
  · exact .text (.quantified op quantifier)
  · split
    · exact .text (spoken_membershipText false)
    · exact .text (spoken_membershipText true)
    · exact .notice_cons _ (.text (.quantified op quantifier))

theorem emitted_sortKeyPieces {e : Expr} {direction : Direction} {nulls? : Option NullPlacement}
    (hps : Emitted d d.Says ps) : Emitted d d.Says (sortKeyPieces d e direction nulls? ps) := by
  have hsorted := hps.append (.text (.direction direction))
  cases nulls? with
  | none => exact hsorted
  | some nulls =>
    simp only [sortKeyPieces]
    split
    · exact hsorted.append (.text (.placement nulls))
    · refine (Emitted.notice_cons _ (hps.enclosedIf _)).append (.text_cons (.keyword ?_) hsorted)
      cases nulls <;> decide

theorem emitted_clausePieces {keyword : String} (hkeyword : keyword ∈ keywords)
    {pieces? : Option (List Piece)} (h : ∀ ps ∈ pieces?, Emitted d d.Says ps) :
    Emitted d d.Says (clausePieces keyword pieces?) := by
  cases pieces? with
  | none => exact .nil
  | some ps => exact .text_cons (.keyword hkeyword) (h ps rfl)

theorem emitted_conditionClause {keyword : String} (hkeyword : keyword ∈ keywords)
    {layout : Expr → List Piece} {e? : Option Expr}
    (h : ∀ e ∈ e?.toList, Emitted d d.Says (layout e)) :
    Emitted d d.Says (clausePieces keyword (e?.map layout)) := by
  refine emitted_clausePieces hkeyword ?_
  cases e? with
  | none => nofun
  | some e =>
    rintro ps ⟨⟩
    exact h e (by simp)

theorem emitted_orderPieces {keys : List (List Piece)} (h : ∀ ps ∈ keys, Emitted d d.Says ps) :
    Emitted d d.Says (orderPieces keys) := by
  unfold orderPieces
  split
  · exact .nil
  · exact .text_cons (.keyword (by decide)) (.commaSeparated h)

theorem emitted_pagePieces (limit? offset? : Option Nat) :
    Emitted d d.Says (pagePieces d limit? offset?) := by
  refine .append ?_ ?_
  · rcases limit? with _ | n
    · rcases offset? with _ | n
      · exact .nil
      · cases hlimit : d.unboundedLimit? with
        | none => exact .nil
        | some s => exact .text (.unbounded hlimit)
    · exact .text (.limit n)
  · cases offset? with
    | none => exact .nil
    | some n => exact .text (.offset n)

end Parts

end Piece

/-! ### Expressions, selects and statements -/

section Trees

open Piece (Emitted)

variable {d : Dialect}

/-- An expression says nothing else if its parts say nothing else. -/
theorem Expr.emitted_pieces_of_parts (e : Expr) (qualify : Bool)
    (parts : ∀ c ∈ e.children, Emitted d d.Says (c.pieces d qualify))
    (query : ∀ s, e.query? = some s → Emitted d d.Says (s.pieces d)) :
    Emitted d d.Says (e.pieces d qualify) := by
  cases e with
  | column c => exact Piece.emitted_columnPieces qualify c
  | literal v type? => exact .parameter v
  | negation e =>
    exact .text_cons (.keyword (by decide)) ((parts e (by simp [Expr.children])).enclosedIf _)
  | complement e =>
    exact (Emitted.text_cons (.keyword (by decide)) (parts e (by simp [Expr.children]))).append
      (.text (.keyword (by decide)))
  | nullTest e negated =>
    refine ((parts e (by simp [Expr.children])).enclosedIf _).append (.text (.keyword ?_))
    cases negated <;> decide
  | binary l op r =>
    exact Piece.emitted_binaryPieces (parts l (by simp [Expr.children]))
      (parts r (by simp [Expr.children]))
  | junction kind es =>
    unfold Expr.pieces
    split
    · exact .text (.truthValue _)
    · rw [partPieces_eq]
      exact .separated (.connective kind)
        (List.forall_mem_map.2 fun e he => (parts e he).enclosedIf _)
  | rowCount => exact .callPieces _ (.text (.keyword (by decide)))
  | valueCount distinct e =>
    refine .callPieces _ ?_
    cases distinct
    · exact parts e (by simp [Expr.children])
    · exact .text_cons (.keyword (by decide)) (parts e (by simp [Expr.children]))
  | apply f e => exact .callPieces _ (parts e (by simp [Expr.children]))
  | orElse e fallback =>
    refine .callPieces _ (.commaSeparated ?_)
    simpa [Expr.children] using parts
  | extremum f first second rest =>
    refine .callPieces _ (.commaSeparated ?_)
    simpa [Expr.children, itemPieces_eq] using parts
  | joinedText e separator =>
    have he := parts e (by simp [Expr.children])
    refine .callPieces _ ?_
    split
    · rename_i hseparator
      exact he.append (.text_cons (.keyword (by decide)) (.quotedText hseparator separator))
    · refine .commaSeparated ?_
      rintro ps (_ | ⟨_, _ | ⟨_, ⟨⟩⟩⟩)
      · exact he
      · exact .parameter _
  | listMembership e items negated =>
    unfold Expr.pieces
    split
    · exact .text (.truthValue _)
    · refine (((parts e (by simp [Expr.children])).enclosedIf _).append
        (.text_cons (Piece.spoken_membershipText negated) (.commaSeparated ?_))).append
        (.text (.keyword (by decide)))
      rw [itemPieces_eq]
      exact List.forall_mem_map.2 fun c hc => parts c (List.mem_cons_of_mem _ hc)
  | rowMembership e s negated =>
    exact (((parts e (by simp [Expr.children])).enclosedIf _).append
      (.text_cons (Piece.spoken_membershipText negated) (query s rfl))).append
      (.text (.keyword (by decide)))
  | range e low high negated =>
    have hlow := (parts low (by simp [Expr.children])).enclosedIf (!low.isAtomic)
    have hhigh := (parts high (by simp [Expr.children])).enclosedIf (!high.isAtomic)
    refine (((parts e (by simp [Expr.children])).enclosedIf _).append
      (.text_cons (.keyword ?_) hlow)).append (.text_cons (.keyword (by decide)) hhigh)
    cases negated <;> decide
  | existence s negated =>
    refine (Emitted.text_cons (.keyword ?_) (query s rfl)).append (.text (.keyword (by decide)))
    cases negated <;> decide
  | quantified e op quantifier s =>
    exact ((((parts e (by simp [Expr.children])).enclosedIf _).append
      (Piece.emitted_opening op quantifier)).append (query s rfl)).append
      (.text (.keyword (by decide)))

/-- A select says nothing else if the expressions of its clauses say nothing else. -/
theorem Select.emitted_pieces_of_clauses (s : Select)
    (clauses : ∀ e ∈ s.clauseExprs, ∀ qualify, Emitted d d.Says (e.pieces d qualify)) :
    Emitted d d.Says (s.pieces d) := by
  obtain ⟨hprojections, hjoins, hfilter, hhaving, horder⟩ := s.forall_clauseExprs.1 clauses
  have hcolumns : Emitted d d.Says (Piece.commaSeparated (resultColumns s.qualifies s.source
      (s.projections.map (Projection.pieces d s.qualifies)))) := by
    refine .commaSeparated ?_
    unfold resultColumns
    split
    · exact Piece.emitted_columns s.qualifies _
    · refine List.forall_mem_map.2 fun p hp => (hprojections p hp _).append ?_
      split
      · exact .text_cons (.keyword (by decide)) (.identifier _)
      · exact .nil
  have hdistinct : Emitted d d.Says (if s.distinct then [.text "DISTINCT "] else []) := by
    split
    · exact .text (.keyword (by decide))
    · exact .nil
  have hselect := (Emitted.text_cons (s := "SELECT ") (.keyword (by decide)) hdistinct).append
    hcolumns
  have hsource : Emitted d d.Says (.text " FROM " :: s.source.sourcePieces) :=
    .text_cons (.keyword (by decide)) (Piece.emitted_sourcePieces s.source)
  have hjoin : Emitted d d.Says (s.joins.flatMap (Join.pieces d s.qualifies)) := by
    refine .flatMap fun j hj => ?_
    cases j with
    | on kind t condition =>
      exact (Emitted.text_cons (.join kind) (Piece.emitted_sourcePieces t)).append
        (.text_cons (.keyword (by decide))
          (hjoins _ hj condition (by simp [Join.condition?]) _))
    | cross t => exact .text_cons .crossJoin (Piece.emitted_sourcePieces t)
  have hgroup : ∀ ps ∈ (if s.groupBy.isEmpty then none
      else some (Piece.commaSeparated (s.groupBy.map (Column.pieces s.qualifies)))),
        Emitted d d.Says ps := by
    split
    · intro ps hps
      cases hps
    · rintro ps ⟨⟩
      exact .commaSeparated (Piece.emitted_columns s.qualifies _)
  have hkeys : ∀ ps ∈ s.orderBy.map (SortKey.pieces d s.qualifies), Emitted d d.Says ps :=
    List.forall_mem_map.2 fun k hk => Piece.emitted_sortKeyPieces (horder k hk _)
  rw [Select.pieces_eq]
  exact (((((((hselect.append hsource).append hjoin).append
    (Piece.emitted_conditionClause (by decide) fun e he => hfilter e he _)).append
    (Piece.emitted_clausePieces (by decide) hgroup)).append
    (Piece.emitted_conditionClause (by decide) fun e he => hhaving e he _)).append
    (Piece.emitted_orderPieces hkeys)).append (Piece.emitted_pagePieces _ _))

theorem Expr.emitted_pieces (e : Expr) (qualify : Bool) :
    Emitted d d.Says (e.pieces d qualify) :=
  Expr.induction (P := fun e => ∀ qualify, Emitted d d.Says (e.pieces d qualify))
    (Q := fun s => Emitted d d.Says (s.pieces d))
    (fun e parts query qualify =>
      e.emitted_pieces_of_parts qualify (fun c hc => parts c hc qualify) query)
    Select.emitted_pieces_of_clauses e qualify

/-- The fixed text of a select is of the vocabulary of the dialect. -/
theorem Select.emitted_pieces (s : Select) : Emitted d d.Says (s.pieces d) :=
  s.emitted_pieces_of_clauses fun e _ => e.emitted_pieces

/-- What a part of a statement says, the statement says. -/
theorem Piece.Emitted.inside {ps : List Piece} (h : Emitted d d.Says ps) :
    Emitted d (Statement.Says d) ps :=
  h.mono fun _ => .inside

theorem emitted_returningPieces (columns : List Column) :
    Emitted d (Statement.Says d) (returningPieces d columns) := by
  unfold returningPieces
  split
  · exact .nil
  · have hlist : Emitted d (Statement.Says d)
        (.text " RETURNING " :: Piece.commaSeparated (columns.map (Column.pieces false))) :=
      .text_cons (.keyword (by decide))
        (Emitted.commaSeparated (Piece.emitted_columns false columns)).inside
    split
    · exact hlist
    · exact .notice_cons _ hlist

/-- The condition of a statement on one table. -/
theorem emitted_filterPieces (e? : Option Expr) :
    Emitted d d.Says (clausePieces " WHERE " (conditionPieces d false e?)) := by
  rw [conditionPieces_eq]
  exact Piece.emitted_conditionClause (by decide) fun e _ => e.emitted_pieces false

/-- The order and the limits of the result of a compound select. -/
theorem emitted_pagingPieces (keys : List SortKey) (limit? offset? : Option Nat) :
    Emitted d d.Says (orderPieces (sortPieces d false keys) ++ pagePieces d limit? offset?) := by
  have hkeys : ∀ ps ∈ sortPieces d false keys, Emitted d d.Says ps := by
    rw [sortPieces_eq]
    exact List.forall_mem_map.2 fun k _ => Piece.emitted_sortKeyPieces (k.expr.emitted_pieces false)
  exact (Piece.emitted_orderPieces hkeys).append (Piece.emitted_pagePieces limit? offset?)

theorem CompoundSelect.emitted_pieces (c : CompoundSelect) :
    Emitted d (Statement.Says d) (c.pieces d) := by
  have hmembers : Emitted d (Statement.Says d) (memberPieces d c.rest) :=
    .flatMap fun m _ => .text_cons (.setOperator m.1) m.2.emitted_pieces.inside
  rw [CompoundSelect.pieces, List.append_assoc]
  exact (c.first.emitted_pieces.inside.append hmembers).append
    (emitted_pagingPieces c.orderBy c.limit? c.offset?).inside

theorem Insert.emitted_pieces (i : Insert) : Emitted d (Statement.Says d) (i.pieces d) := by
  have hcolumns : Emitted d d.Says (Piece.commaSeparated (i.columns.map (Column.pieces false))) :=
    .commaSeparated (Piece.emitted_columns false _)
  have hrows : Emitted d d.Says (Piece.commaSeparated (i.rows.map (rowPieces d))) := by
    refine .commaSeparated (List.forall_mem_map.2 fun row _ => .parenthesized (.commaSeparated ?_))
    rw [itemPieces_eq]
    exact List.forall_mem_map.2 fun e _ => e.emitted_pieces false
  exact (((Emitted.text_cons (.keyword (by decide))
    (Piece.emitted_namePieces i.table).inside).append
    (.text_cons (.keyword (by decide)) hcolumns.inside)).append
    (.text_cons (.keyword (by decide)) hrows.inside)).append (emitted_returningPieces _)

theorem Update.emitted_pieces (u : Update) : Emitted d (Statement.Says d) (u.pieces d) := by
  have hassignments : Emitted d (Statement.Says d)
      (Piece.commaSeparated (u.assignments.map (assignmentPieces d))) := by
    refine .separated (.inside (.keyword (by decide))) (List.forall_mem_map.2 fun a _ => ?_)
    exact (Piece.emitted_columnPieces false a.1).inside.append
      (.text_cons (.keyword (by decide)) (a.2.emitted_pieces false).inside)
  exact (((Emitted.text_cons (.keyword (by decide))
    (Piece.emitted_sourcePieces u.table).inside).append
    (.text_cons (.keyword (by decide)) hassignments)).append
    (emitted_filterPieces u.filter?).inside).append (emitted_returningPieces _)

theorem Delete.emitted_pieces (x : Delete) : Emitted d (Statement.Says d) (x.pieces d) :=
  ((Emitted.text_cons (.keyword (by decide)) (Piece.emitted_sourcePieces x.table).inside).append
    (emitted_filterPieces x.condition?).inside).append (emitted_returningPieces _)

/-- **The fixed text of a statement is of the vocabulary of the dialect**, whatever names and values
are in it. -/
theorem Statement.emitted_pieces (s : Statement) : Emitted d (Statement.Says d) (s.pieces d) := by
  cases s with
  | select s => exact s.emitted_pieces.inside
  | compound c => exact c.emitted_pieces
  | insert i _ => exact i.emitted_pieces
  | update u _ => exact u.emitted_pieces
  | delete x _ => exact x.emitted_pieces

end Trees

end TypedSql
