import Mathlib.Data.List.Basic
import TypedSql.Expr.Induction
import TypedSql.Statement.Pieces

/-!
# Views of pieces

A view keeps some pieces of a layout and drops the others: the values it binds, the names it
quotes, the notices it raises. Layouts are put together from fixed text and the layouts of their
parts; a view that sees nothing in fixed text is put together from the views of the parts alone.
`Piece.view_*` says so for every way in which layouts are put together, `Expr.view_pieces` and
`Select.view_pieces` for expressions and selects.
-/

namespace TypedSql

namespace Piece

/-- The name that a piece quotes. -/
def identifier? : Piece → Option String
  | .identifier name => some name
  | _ => none

/-- The names that pieces quote, in order. -/
def identifiers (ps : List Piece) : List String :=
  ps.filterMap identifier?

/-- A view sees nothing in fixed text. -/
def IgnoresText {β : Type} (f : Piece → Option β) : Prop :=
  ∀ s, f (.text s) = none

/-- A view sees no notices. -/
def IgnoresNotices {β : Type} (f : Piece → Option β) : Prop :=
  ∀ n, f (.notice n) = none

/-- A view sees no notices on what is written in other words. -/
structure IgnoresEmulations {β : Type} (f : Piece → Option β) : Prop where
  ilike : f (.notice .ilikeEmulated) = none
  nullPlacement : f (.notice .nullPlacementEmulated) = none

/-- A view sees no names. -/
def IgnoresNames {β : Type} (f : Piece → Option β) : Prop :=
  ∀ name, f (.identifier name) = none

theorem IgnoresNotices.ignoresEmulations {β : Type} {f : Piece → Option β}
    (h : IgnoresNotices f) : IgnoresEmulations f :=
  ⟨h _, h _⟩

theorem parameter?_ignoresText : IgnoresText parameter? := fun _ => rfl

theorem parameter?_ignoresNotices : IgnoresNotices parameter? := fun _ => rfl

theorem parameter?_ignoresNames : IgnoresNames parameter? := fun _ => rfl

theorem identifier?_ignoresText : IgnoresText identifier? := fun _ => rfl

theorem identifier?_ignoresNotices : IgnoresNotices identifier? := fun _ => rfl

/-- What a sort key shows of what its expression shows: it shows it twice where its placement of
NULL is a sort key of its own. -/
def keyView {β : Type} (separate : Bool) (nulls? : Option NullPlacement) (xs : List β) : List β :=
  if nulls?.isSome && separate then xs ++ xs else xs

section View

variable {β : Type} {f : Piece → Option β} (hf : IgnoresText f)
include hf

theorem view_text_cons (s : String) (ps : List Piece) :
    (Piece.text s :: ps).filterMap f = ps.filterMap f :=
  List.filterMap_cons_none (hf s)

theorem view_text (s : String) : [Piece.text s].filterMap f = [] := by
  rw [view_text_cons hf, List.filterMap_nil]

theorem view_parenthesized (ps : List Piece) : (parenthesized ps).filterMap f = ps.filterMap f := by
  rw [parenthesized, List.cons_append, view_text_cons hf, List.filterMap_append, view_text hf,
    List.append_nil]

theorem view_enclosedIf (b : Bool) (ps : List Piece) :
    (enclosedIf b ps).filterMap f = ps.filterMap f := by
  cases b
  · rfl
  · exact view_parenthesized hf ps

theorem view_separated (separator : String) (items : List (List Piece)) :
    (separated separator items).filterMap f = items.flatMap (List.filterMap f) := by
  fun_induction separated separator items with
  | case1 => rfl
  | case2 ps => simp
  | case3 ps qs rest ih => simp [view_text_cons hf, ih]

theorem view_commaSeparated (items : List (List Piece)) :
    (commaSeparated items).filterMap f = items.flatMap (List.filterMap f) :=
  view_separated hf ", " items

theorem view_callPieces (d : Dialect) (g : SqlFunction) (ps : List Piece) :
    (callPieces d g ps).filterMap f = ps.filterMap f := by
  simp [callPieces, view_text_cons hf]

theorem view_conditionClause (keyword : String) (layout : Expr → List Piece) (e? : Option Expr) :
    (clausePieces keyword (e?.map layout)).filterMap f =
      e?.toList.flatMap fun e => (layout e).filterMap f := by
  cases e? <;> simp [clausePieces, view_text_cons hf]

theorem view_columnClause (keyword : String) (qualify : Bool) (cs : List Column) :
    (clausePieces keyword (if cs.isEmpty then none
      else some (commaSeparated (cs.map (Column.pieces qualify))))).filterMap f =
      cs.flatMap fun c => (c.pieces qualify).filterMap f := by
  cases cs <;> simp [clausePieces, view_text_cons hf, view_commaSeparated hf, List.flatMap_map]

theorem view_orderPieces (keys : List (List Piece)) :
    (orderPieces keys).filterMap f = keys.flatMap (List.filterMap f) := by
  cases keys with
  | nil => rfl
  | cons k ks => simp [orderPieces, view_text_cons hf, view_commaSeparated hf]

theorem view_pagePieces (d : Dialect) (limit? offset? : Option Nat) :
    (pagePieces d limit? offset?).filterMap f = [] := by
  cases limit? <;> cases offset? <;> cases hd : d.unboundedLimit? <;>
    simp [pagePieces, hd, view_text_cons hf]

/-! ### Views that see no emulations either -/

section Emulations

variable (he : IgnoresEmulations f)
include he

theorem view_operands (d : Dialect) (op : BinaryOp) (l r : Expr) (ps qs : List Piece) :
    (op.pieces d l r ps qs).filterMap f = ps.filterMap f ++ qs.filterMap f := by
  cases op with
  | pattern m =>
    simp only [BinaryOp.pieces, PatternMatch.pieces]
    split <;>
      simp [List.filterMap_cons_none he.ilike, view_text_cons hf, view_enclosedIf hf]
  | compare op => simp [BinaryOp.pieces, view_text_cons hf, view_enclosedIf hf]
  | arithmetic op => simp [BinaryOp.pieces, view_text_cons hf, view_enclosedIf hf]

/-- A sort key shows its expression. -/
theorem view_sortKey (d : Dialect) (e : Expr) (direction : Direction)
    (nulls? : Option NullPlacement) (ps : List Piece) :
    (sortKeyPieces d e direction nulls? ps).filterMap f =
      keyView (!d.supportsNullPlacement) nulls? (ps.filterMap f) := by
  cases nulls? with
  | none => simp [sortKeyPieces, keyView, view_text hf]
  | some nulls =>
    cases h : d.supportsNullPlacement <;>
      simp [sortKeyPieces, keyView, h, view_text_cons hf, List.filterMap_cons_none he.nullPlacement,
        view_enclosedIf hf]

end Emulations

/-! ### Views that see no notices either -/

variable (hn : IgnoresNotices f)
include hn

omit hf in
theorem view_notice_cons (n : Notice) (ps : List Piece) :
    (Piece.notice n :: ps).filterMap f = ps.filterMap f :=
  List.filterMap_cons_none (hn n)

theorem view_opening (d : Dialect) (op : Comparison) (quantifier : Quantifier) :
    (quantifier.opening d op).filterMap f = [] := by
  unfold Quantifier.opening
  split
  · exact view_text hf _
  · split <;> simp [view_text hf, view_notice_cons hn]

theorem view_sortKeyPieces (d : Dialect) (e : Expr) (direction : Direction)
    (nulls? : Option NullPlacement) (ps : List Piece) :
    (sortKeyPieces d e direction nulls? ps).filterMap f =
      keyView (!d.supportsNullPlacement) nulls? (ps.filterMap f) :=
  view_sortKey hf hn.ignoresEmulations d e direction nulls? ps

theorem view_returningPieces (d : Dialect) (columns : List Column) :
    (returningPieces d columns).filterMap f =
      columns.flatMap fun c => (c.pieces false).filterMap f := by
  cases columns with
  | nil => rfl
  | cons c cs =>
    cases h : d.supportsReturning <;>
      simp [returningPieces, h, view_text_cons hf, view_notice_cons hn, view_commaSeparated hf,
        List.flatMap_map]

end View

end Piece

/-! ### Views of expressions and selects -/

section Assembly

variable {β : Type} (d : Dialect) (f : Piece → Option β) (qualify : Bool)

/-- What a view shows of an expression, put together from what it shows of the parts: the parts in
order, then the subquery. Only columns, literals, text aggregates and membership in an empty list
are not just their parts. -/
def Expr.assembled (ofExpr : Expr → List β) (ofSelect : Select → List β) : Expr → List β
  | .column c => (c.pieces qualify).filterMap f
  | .literal v _ => [Piece.parameter v].filterMap f
  | .joinedText e separator =>
    ofExpr e ++ [if d.separatorClause then Piece.quotedText separator
      else Piece.parameter (.text separator)].filterMap f
  | .listMembership _ [] _ => []
  | e => e.children.flatMap ofExpr ++ e.query?.toList.flatMap ofSelect

/-- What a view shows of a quantified comparison between its subject and its subquery. -/
def Expr.comparisonView : Expr → List β
  | .quantified _ op quantifier _ => (quantifier.opening d op).filterMap f
  | _ => []

theorem Expr.assembled_congr {ofExpr ofExpr' : Expr → List β} {ofSelect ofSelect' : Select → List β}
    (e : Expr) (parts : ∀ c ∈ e.children, ofExpr c = ofExpr' c)
    (query : ∀ s, e.query? = some s → ofSelect s = ofSelect' s) :
    e.assembled d f qualify ofExpr ofSelect = e.assembled d f qualify ofExpr' ofSelect' := by
  unfold Expr.assembled
  split
  · rfl
  · rfl
  · rw [parts _ (by simp [Expr.children])]
  · rfl
  · rw [List.flatMap_congr parts, List.flatMap_congr fun s hs => query s (by simpa using hs)]

variable {d f qualify} (hf : Piece.IgnoresText f)
include hf

/-- A view of a select is put together from the views of its clauses. -/
theorem Select.view_pieces (s : Select) :
    (s.pieces d).filterMap f =
      (resultColumns s.qualifies s.source
          (s.projections.map (Projection.pieces d s.qualifies))).flatMap (List.filterMap f) ++
        s.source.sourcePieces.filterMap f ++
        s.joins.flatMap (fun j => (j.pieces d s.qualifies).filterMap f) ++
        s.filter?.toList.flatMap (fun e => (e.pieces d s.qualifies).filterMap f) ++
        s.groupBy.flatMap (fun c => (c.pieces s.qualifies).filterMap f) ++
        s.having?.toList.flatMap (fun e => (e.pieces d s.qualifies).filterMap f) ++
        s.orderBy.flatMap (fun k => (k.pieces d s.qualifies).filterMap f) := by
  have hdistinct :
      (if s.distinct then [Piece.text "DISTINCT "] else []).filterMap f = [] := by
    cases s.distinct <;> simp [Piece.view_text_cons hf]
  rw [Select.pieces_eq]
  simp only [List.cons_append, List.filterMap_append, Piece.view_text_cons hf,
    Piece.view_commaSeparated hf, Piece.view_conditionClause hf, Piece.view_columnClause hf,
    Piece.view_orderPieces hf, Piece.view_pagePieces hf, hdistinct, List.filterMap_flatMap,
    List.flatMap_map, List.nil_append, List.append_nil, List.append_assoc]

/-- A view of an expression is put together from the views of its parts and of the comparison with
its subquery. -/
theorem Expr.view_parts (he : Piece.IgnoresEmulations f) (e : Expr) :
    (e.pieces d qualify).filterMap f =
      e.assembled d f qualify (fun c => (c.pieces d qualify).filterMap f)
        (fun s => e.comparisonView d f ++ (s.pieces d).filterMap f) := by
  cases e with
  | column c => simp [Expr.pieces, Expr.assembled]
  | literal v type? => simp [Expr.pieces, Expr.assembled]
  | negation e =>
    simp [Expr.pieces, Expr.assembled, Expr.children, Expr.query?, Piece.view_text_cons hf,
      Piece.view_enclosedIf hf]
  | complement e =>
    simp [Expr.pieces, Expr.assembled, Expr.children, Expr.query?, Piece.view_text_cons hf]
  | nullTest e negated =>
    simp [Expr.pieces, Expr.assembled, Expr.children, Expr.query?, Piece.view_text_cons hf,
      Piece.view_enclosedIf hf]
  | binary l op r =>
    simp [Expr.pieces, Expr.assembled, Expr.children, Expr.query?, Piece.view_operands hf he]
  | junction kind parts =>
    cases parts <;>
      simp [Expr.pieces, Expr.assembled, Expr.children, Expr.query?, Piece.view_text_cons hf,
        Piece.view_separated hf, Piece.view_enclosedIf hf, partPieces_eq, List.flatMap_map]
  | rowCount =>
    simp [Expr.pieces, Expr.assembled, Expr.children, Expr.query?, Piece.view_callPieces hf,
      Piece.view_text_cons hf]
  | valueCount distinct e =>
    cases distinct <;>
      simp [Expr.pieces, Expr.assembled, Expr.children, Expr.query?, Piece.view_callPieces hf,
        Piece.view_text_cons hf]
  | apply g e =>
    simp [Expr.pieces, Expr.assembled, Expr.children, Expr.query?, Piece.view_callPieces hf]
  | orElse e fallback =>
    simp [Expr.pieces, Expr.assembled, Expr.children, Expr.query?, Piece.view_callPieces hf,
      Piece.view_commaSeparated hf]
  | extremum g first second rest =>
    simp [Expr.pieces, Expr.assembled, Expr.children, Expr.query?, Piece.view_callPieces hf,
      Piece.view_commaSeparated hf, itemPieces_eq, List.flatMap_map]
  | joinedText e separator =>
    cases h : d.separatorClause <;>
      simp [Expr.pieces, Expr.assembled, h, Piece.view_callPieces hf, Piece.view_text_cons hf,
        Piece.view_commaSeparated hf]
  | listMembership e items negated =>
    cases items <;>
      simp [Expr.pieces, Expr.assembled, Expr.children, Expr.query?, Piece.view_text_cons hf,
        Piece.view_enclosedIf hf, Piece.view_commaSeparated hf, itemPieces_eq, List.flatMap_map]
  | rowMembership e query negated =>
    simp [Expr.pieces, Expr.assembled, Expr.children, Expr.query?, Expr.comparisonView,
      Piece.view_text_cons hf, Piece.view_enclosedIf hf]
  | range e low high negated =>
    simp [Expr.pieces, Expr.assembled, Expr.children, Expr.query?, Piece.view_text_cons hf,
      Piece.view_enclosedIf hf]
  | existence query negated =>
    simp [Expr.pieces, Expr.assembled, Expr.children, Expr.query?, Expr.comparisonView,
      Piece.view_text_cons hf]
  | quantified e op quantifier query =>
    simp [Expr.pieces, Expr.assembled, Expr.children, Expr.query?, Expr.comparisonView,
      Piece.view_text_cons hf, Piece.view_enclosedIf hf]

/-- A view of an expression is put together from the views of its parts. -/
theorem Expr.view_pieces (hn : Piece.IgnoresNotices f) (e : Expr) :
    (e.pieces d qualify).filterMap f =
      e.assembled d f qualify (fun c => (c.pieces d qualify).filterMap f)
        (fun s => (s.pieces d).filterMap f) := by
  have hcomparison : e.comparisonView d f = [] := by
    cases e with
    | quantified e op quantifier query => exact Piece.view_opening hf hn d op quantifier
    | _ => rfl
  rw [e.view_parts hf hn.ignoresEmulations, hcomparison]
  simp only [List.nil_append]

end Assembly

/-! ### Views that see no names -/

section Nameless

variable {β : Type} {d : Dialect} {f : Piece → Option β} (hf : Piece.IgnoresText f)
  (hi : Piece.IgnoresNames f)
include hf hi

theorem Column.view_pieces (qualify : Bool) (c : Column) :
    (c.pieces qualify).filterMap f = [] := by
  cases qualify <;> simp [Column.pieces, hf _, hi _]

theorem Column.view_flatMap_pieces (qualify : Bool) (cs : List Column) :
    (cs.flatMap fun c => (c.pieces qualify).filterMap f) = [] :=
  List.flatMap_eq_nil_iff.2 fun c _ => c.view_pieces hf hi qualify

theorem Table.view_sourcePieces (t : Table) : t.sourcePieces.filterMap f = [] := by
  obtain ⟨⟨schema?, name, alias?⟩, _, _, _, _⟩ := t
  cases schema? <;> cases alias? <;>
    simp [Table.sourcePieces, Table.namePieces, hf _, hi _]

theorem Projection.view_pieces (qualify : Bool) (p : Projection) :
    (p.pieces d qualify).filterMap f = (p.expr.pieces d qualify).filterMap f := by
  obtain ⟨e, alias?⟩ := p
  cases alias? <;> simp [Projection.pieces, hf _, hi _]

theorem Join.view_pieces (qualify : Bool) (j : Join) :
    (j.pieces d qualify).filterMap f =
      j.condition?.toList.flatMap fun e => (e.pieces d qualify).filterMap f := by
  cases j <;>
    simp [Join.pieces, Join.condition?, Piece.view_text_cons hf, Table.view_sourcePieces hf hi]

/-- The result columns of a select show what its projections show. -/
theorem view_resultColumns (qualify : Bool) (source : Table) (ps : List Projection) :
    (resultColumns qualify source (ps.map (Projection.pieces d qualify))).flatMap
        (List.filterMap f) =
      ps.flatMap fun p => (p.expr.pieces d qualify).filterMap f := by
  cases ps with
  | nil => simp [resultColumns, Column.view_pieces hf hi, List.flatMap_map]
  | cons p ps => simp [resultColumns, Projection.view_pieces hf hi, List.flatMap_map]

/-- A select shows what its clauses show; columns and tables show nothing. -/
theorem Select.view_clauses (he : Piece.IgnoresEmulations f) (s : Select) :
    (s.pieces d).filterMap f =
      (s.projections.flatMap fun p => (p.expr.pieces d s.qualifies).filterMap f) ++
        (s.joins.flatMap fun j =>
          j.condition?.toList.flatMap fun e => (e.pieces d s.qualifies).filterMap f) ++
        (s.filter?.toList.flatMap fun e => (e.pieces d s.qualifies).filterMap f) ++
        (s.having?.toList.flatMap fun e => (e.pieces d s.qualifies).filterMap f) ++
        s.orderBy.flatMap fun k =>
          Piece.keyView (!d.supportsNullPlacement) k.nulls?
            ((k.expr.pieces d s.qualifies).filterMap f) := by
  have hkeys : ∀ k : SortKey, (k.pieces d s.qualifies).filterMap f =
      Piece.keyView (!d.supportsNullPlacement) k.nulls?
        ((k.expr.pieces d s.qualifies).filterMap f) :=
    fun k => Piece.view_sortKey hf he ..
  simp only [Select.view_pieces hf, view_resultColumns hf hi, Table.view_sourcePieces hf hi,
    Join.view_pieces hf hi, Column.view_flatMap_pieces hf hi, hkeys, List.append_nil]

theorem Select.view_pieces_clauses (hn : Piece.IgnoresNotices f) (s : Select) :
    (s.pieces d).filterMap f =
      (s.projections.flatMap fun p => (p.expr.pieces d s.qualifies).filterMap f) ++
        (s.joins.flatMap fun j =>
          j.condition?.toList.flatMap fun e => (e.pieces d s.qualifies).filterMap f) ++
        (s.filter?.toList.flatMap fun e => (e.pieces d s.qualifies).filterMap f) ++
        (s.having?.toList.flatMap fun e => (e.pieces d s.qualifies).filterMap f) ++
        s.orderBy.flatMap fun k =>
          Piece.keyView (!d.supportsNullPlacement) k.nulls?
            ((k.expr.pieces d s.qualifies).filterMap f) :=
  s.view_clauses hf hi hn.ignoresEmulations

end Nameless

end TypedSql
