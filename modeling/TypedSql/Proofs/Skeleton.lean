import Mathlib.Data.List.Basic
import TypedSql.Compiled
import TypedSql.Expr.Induction

/-!
# Skeletons of statements

`Statement.mapValues` changes the values of the literals of a statement and nothing else. The
skeleton of a statement is what is left when all of them are NULL: its columns and operators, the
declared types of its literals, its separators, limits and offsets. `Statement.sql_eq_of_skeleton`
says that the text of a statement depends on its skeleton alone, however a dialect spells its
placeholders and its identifiers.
-/

namespace TypedSql

mutual

/-- An expression with a function applied to the values of its literals. -/
def Expr.mapValues (f : Value → Value) : Expr → Expr
  | .column c => .column c
  | .literal v type? => .literal (f v) type?
  | .negation e => .negation (e.mapValues f)
  | .complement e => .complement (e.mapValues f)
  | .nullTest e negated => .nullTest (e.mapValues f) negated
  | .binary l op r => .binary (l.mapValues f) op (r.mapValues f)
  | .junction kind parts => .junction kind (mapValuesOfAll f parts)
  | .rowCount => .rowCount
  | .valueCount distinct e => .valueCount distinct (e.mapValues f)
  | .apply g e => .apply g (e.mapValues f)
  | .orElse e fallback => .orElse (e.mapValues f) (fallback.mapValues f)
  | .extremum g first second rest =>
    .extremum g (first.mapValues f) (second.mapValues f) (mapValuesOfAll f rest)
  | .joinedText e separator => .joinedText (e.mapValues f) separator
  | .listMembership e items negated =>
    .listMembership (e.mapValues f) (mapValuesOfAll f items) negated
  | .rowMembership e query negated => .rowMembership (e.mapValues f) (query.mapValues f) negated
  | .range e low high negated =>
    .range (e.mapValues f) (low.mapValues f) (high.mapValues f) negated
  | .existence query negated => .existence (query.mapValues f) negated
  | .quantified e op quantifier query =>
    .quantified (e.mapValues f) op quantifier (query.mapValues f)

/-- Expressions with a function applied to the values of their literals. -/
def mapValuesOfAll (f : Value → Value) : List Expr → List Expr
  | [] => []
  | e :: es => e.mapValues f :: mapValuesOfAll f es

/-- A clause that may be missing, with a function applied to the values of its literals. -/
def mapValuesOfClause (f : Value → Value) : Option Expr → Option Expr
  | none => none
  | some e => some (e.mapValues f)

/-- Result columns with a function applied to the values of their literals. -/
def mapValuesOfProjections (f : Value → Value) : List Projection → List Projection
  | [] => []
  | ⟨e, alias?⟩ :: ps => ⟨e.mapValues f, alias?⟩ :: mapValuesOfProjections f ps

/-- Joins with a function applied to the values of the literals of their conditions. -/
def mapValuesOfJoins (f : Value → Value) : List Join → List Join
  | [] => []
  | .on kind t condition :: js => .on kind t (condition.mapValues f) :: mapValuesOfJoins f js
  | .cross t :: js => .cross t :: mapValuesOfJoins f js

/-- Sort keys with a function applied to the values of their literals. -/
def mapValuesOfSortKeys (f : Value → Value) : List SortKey → List SortKey
  | [] => []
  | ⟨e, direction, nulls?⟩ :: ks =>
    ⟨e.mapValues f, direction, nulls?⟩ :: mapValuesOfSortKeys f ks

/-- A select with a function applied to the values of its literals. -/
def Select.mapValues (f : Value → Value) : Select → Select
  | ⟨distinct, projections, source, correlated, joins, filter?, groupBy, having?, orderBy, limit?,
      offset?⟩ =>
    ⟨distinct, mapValuesOfProjections f projections, source, correlated, mapValuesOfJoins f joins,
      mapValuesOfClause f filter?, groupBy, mapValuesOfClause f having?,
      mapValuesOfSortKeys f orderBy, limit?, offset?⟩

end

/-- A result column with a function applied to the values of its literals. -/
def Projection.mapValues (f : Value → Value) (p : Projection) : Projection :=
  { p with expr := p.expr.mapValues f }

/-- A join with a function applied to the values of the literals of its condition. -/
def Join.mapValues (f : Value → Value) : Join → Join
  | .on kind t condition => .on kind t (condition.mapValues f)
  | .cross t => .cross t

/-- A sort key with a function applied to the values of its literals. -/
def SortKey.mapValues (f : Value → Value) (k : SortKey) : SortKey :=
  { k with expr := k.expr.mapValues f }

/-- A compound select with a function applied to the values of its literals. -/
def CompoundSelect.mapValues (f : Value → Value) (c : CompoundSelect) : CompoundSelect where
  first := c.first.mapValues f
  rest := c.rest.map fun m => (m.1, m.2.mapValues f)
  orderBy := c.orderBy.map (SortKey.mapValues f)
  limit? := c.limit?
  offset? := c.offset?

/-- An insert with a function applied to the values of its literals. -/
def Insert.mapValues (f : Value → Value) (i : Insert) : Insert :=
  { i with rows := i.rows.map (List.map (Expr.mapValues f)) }

/-- An update with a function applied to the values of its literals. -/
def Update.mapValues (f : Value → Value) (u : Update) : Update :=
  { u with
    assignments := u.assignments.map fun a => (a.1, a.2.mapValues f)
    filter? := u.filter?.map (Expr.mapValues f) }

/-- The rows that a delete removes, with a function applied to the values of literals. -/
def DeleteExtent.mapValues (f : Value → Value) : DeleteExtent → DeleteExtent
  | .undecided => .undecided
  | .matching condition => .matching (condition.mapValues f)
  | .allRows => .allRows

/-- A delete with a function applied to the values of its literals. -/
def Delete.mapValues (f : Value → Value) (x : Delete) : Delete :=
  { x with extent := x.extent.mapValues f }

section Completeness

variable {f : Value → Value}

theorem Insert.isComplete_mapValues {i : Insert} (h : i.IsComplete) :
    (i.mapValues f).IsComplete := by
  simpa [IsComplete, mapValues] using h

theorem Update.isComplete_mapValues {u : Update} (h : u.IsComplete) :
    (u.mapValues f).IsComplete := by
  simpa [IsComplete, mapValues] using h

theorem Delete.isComplete_mapValues {x : Delete} (h : x.IsComplete) :
    (x.mapValues f).IsComplete := by
  obtain ⟨table, extent, returning⟩ := x
  cases extent <;> exact h

end Completeness

/-- A statement with a function applied to the values of its literals. -/
def Statement.mapValues (f : Value → Value) : Statement → Statement
  | .select s => .select (s.mapValues f)
  | .compound c => .compound (c.mapValues f)
  | .insert i complete => .insert (i.mapValues f) (Insert.isComplete_mapValues complete)
  | .update u complete => .update (u.mapValues f) (Update.isComplete_mapValues complete)
  | .delete x complete => .delete (x.mapValues f) (Delete.isComplete_mapValues complete)

/-! ### Literals forgotten -/

/-- An expression in which all literals are NULL. -/
def Expr.skeleton (e : Expr) : Expr :=
  e.mapValues fun _ => .null

/-- A select in which all literals are NULL. -/
def Select.skeleton (s : Select) : Select :=
  s.mapValues fun _ => .null

/-- A statement in which all literals are NULL. -/
def Statement.skeleton (s : Statement) : Statement :=
  s.mapValues fun _ => .null

section Shape

variable {f : Value → Value}

@[simp] theorem mapValuesOfAll_eq (es : List Expr) :
    mapValuesOfAll f es = es.map (Expr.mapValues f) := by
  induction es with
  | nil => rfl
  | cons e es ih => simp [mapValuesOfAll, ih]

theorem mapValuesOfClause_eq (e? : Option Expr) :
    mapValuesOfClause f e? = e?.map (Expr.mapValues f) := by
  cases e? <;> rfl

theorem mapValuesOfProjections_eq (ps : List Projection) :
    mapValuesOfProjections f ps = ps.map (Projection.mapValues f) := by
  induction ps with
  | nil => rfl
  | cons p ps ih =>
    obtain ⟨e, alias?⟩ := p
    simp [mapValuesOfProjections, Projection.mapValues, ih]

theorem mapValuesOfJoins_eq (js : List Join) :
    mapValuesOfJoins f js = js.map (Join.mapValues f) := by
  induction js with
  | nil => rfl
  | cons j js ih => cases j <;> simp [mapValuesOfJoins, Join.mapValues, ih]

theorem mapValuesOfSortKeys_eq (ks : List SortKey) :
    mapValuesOfSortKeys f ks = ks.map (SortKey.mapValues f) := by
  induction ks with
  | nil => rfl
  | cons k ks ih =>
    obtain ⟨e, direction, nulls?⟩ := k
    simp [mapValuesOfSortKeys, SortKey.mapValues, ih]

/-- A select is changed clause by clause. -/
theorem Select.mapValues_eq (s : Select) :
    s.mapValues f =
      { s with
        projections := s.projections.map (Projection.mapValues f)
        joins := s.joins.map (Join.mapValues f)
        filter? := s.filter?.map (Expr.mapValues f)
        having? := s.having?.map (Expr.mapValues f)
        orderBy := s.orderBy.map (SortKey.mapValues f) } := by
  cases s
  simp [mapValues, mapValuesOfProjections_eq, mapValuesOfJoins_eq, mapValuesOfClause_eq,
    mapValuesOfSortKeys_eq]

@[simp] theorem Expr.isAtomic_mapValues (e : Expr) :
    (e.mapValues f).isAtomic = e.isAtomic := by
  cases e <;> rfl

@[simp] theorem Expr.isJunction_mapValues (e : Expr) :
    (e.mapValues f).isJunction = e.isJunction := by
  cases e <;> rfl

@[simp] theorem Expr.children_mapValues (e : Expr) :
    (e.mapValues f).children = e.children.map (Expr.mapValues f) := by
  cases e <;> simp [Expr.mapValues, Expr.children]

@[simp] theorem Expr.query?_mapValues (e : Expr) :
    (e.mapValues f).query? = e.query?.map (Select.mapValues f) := by
  cases e <;> rfl

theorem Expr.children_skeleton (e : Expr) : e.skeleton.children = e.children.map Expr.skeleton :=
  e.children_mapValues

theorem Expr.query?_skeleton (e : Expr) : e.skeleton.query? = e.query?.map Select.skeleton :=
  e.query?_mapValues

@[simp] theorem Join.table_mapValues (j : Join) : (j.mapValues f).table = j.table := by
  cases j <;> rfl

@[simp] theorem Join.condition?_mapValues (j : Join) :
    (j.mapValues f).condition? = j.condition?.map (Expr.mapValues f) := by
  cases j <;> rfl

@[simp] theorem Select.qualifies_mapValues (s : Select) :
    (s.mapValues f).qualifies = s.qualifies := by
  rw [Select.mapValues_eq, Select.qualifies, Select.qualifies, List.isEmpty_map]

end Shape

/-! ### One change after another -/

section Composition

variable (f g : Value → Value)

theorem Expr.mapValues_mapValues_of_parts (e : Expr)
    (parts : ∀ c ∈ e.children, (c.mapValues f).mapValues g = c.mapValues (g ∘ f))
    (query : ∀ s, e.query? = some s → (s.mapValues f).mapValues g = s.mapValues (g ∘ f)) :
    (e.mapValues f).mapValues g = e.mapValues (g ∘ f) := by
  cases e with
  | junction kind es => simpa [Expr.mapValues, Expr.children] using parts
  | extremum h first second rest => simpa [Expr.mapValues, Expr.children] using parts
  | listMembership e items negated => simpa [Expr.mapValues, Expr.children] using parts
  | existence s negated => simpa [Expr.mapValues, Expr.query?] using query
  | rowMembership e s negated =>
    simpa [Expr.mapValues, Expr.children, Expr.query?] using And.intro parts query
  | quantified e op quantifier s =>
    simpa [Expr.mapValues, Expr.children, Expr.query?] using And.intro parts query
  | column c => rfl
  | literal v type? => rfl
  | rowCount => rfl
  | _ => simpa [Expr.mapValues, Expr.children] using parts

theorem Join.mapValues_mapValues {j : Join}
    (h : ∀ e ∈ j.condition?.toList, (e.mapValues f).mapValues g = e.mapValues (g ∘ f)) :
    (j.mapValues f).mapValues g = j.mapValues (g ∘ f) := by
  cases j with
  | on kind t condition => simpa [Join.mapValues, Join.condition?] using h
  | cross t => rfl

theorem Select.mapValues_mapValues_of_clauses (s : Select)
    (clauses : ∀ e ∈ s.clauseExprs, (e.mapValues f).mapValues g = e.mapValues (g ∘ f)) :
    (s.mapValues f).mapValues g = s.mapValues (g ∘ f) := by
  obtain ⟨hprojections, hjoins, hfilter, hhaving, horder⟩ := s.forall_clauseExprs.1 clauses
  have hclause : ∀ e? : Option Expr,
      (∀ e ∈ e?.toList, (e.mapValues f).mapValues g = e.mapValues (g ∘ f)) →
        (e?.map (Expr.mapValues f)).map (Expr.mapValues g) = e?.map (Expr.mapValues (g ∘ f)) := by
    rintro (_ | e) h
    · rfl
    · exact congrArg some (h e (by simp))
  have hprojections' : ∀ p ∈ s.projections,
      (p.mapValues f).mapValues g = p.mapValues (g ∘ f) := by
    intro p hp
    simp [Projection.mapValues, hprojections p hp]
  have horder' : ∀ k ∈ s.orderBy, (k.mapValues f).mapValues g = k.mapValues (g ∘ f) := by
    intro k hk
    simp [SortKey.mapValues, horder k hk]
  simp only [Select.mapValues_eq, List.map_map, hclause _ hfilter, hclause _ hhaving]
  congr 1
  · exact List.map_congr_left hprojections'
  · exact List.map_congr_left fun j hj => Join.mapValues_mapValues f g (hjoins j hj)
  · exact List.map_congr_left horder'

/-- Changing the values of literals twice is changing them once by both functions. -/
theorem Expr.mapValues_mapValues (e : Expr) :
    (e.mapValues f).mapValues g = e.mapValues (g ∘ f) :=
  Expr.induction (Expr.mapValues_mapValues_of_parts f g)
    (Select.mapValues_mapValues_of_clauses f g) e

theorem Select.mapValues_mapValues (s : Select) :
    (s.mapValues f).mapValues g = s.mapValues (g ∘ f) :=
  s.mapValues_mapValues_of_clauses f g fun e _ => e.mapValues_mapValues f g

end Composition

/-! ### Pieces without their values -/

namespace Piece

/-- A piece without the value that it binds. -/
def erase : Piece → Piece
  | .parameter _ => .parameter .null
  | p => p

/-- Pieces without the values that they bind. -/
def erased (ps : List Piece) : List Piece :=
  ps.map erase

@[simp] theorem erased_nil : erased [] = [] := rfl

@[simp] theorem erased_append (ps qs : List Piece) : erased (ps ++ qs) = erased ps ++ erased qs :=
  List.map_append

@[simp] theorem erased_text_cons (s : String) (ps : List Piece) :
    erased (.text s :: ps) = .text s :: erased ps := rfl

@[simp] theorem erased_identifier_cons (name : String) (ps : List Piece) :
    erased (.identifier name :: ps) = .identifier name :: erased ps := rfl

@[simp] theorem erased_quotedText_cons (s : String) (ps : List Piece) :
    erased (.quotedText s :: ps) = .quotedText s :: erased ps := rfl

@[simp] theorem erased_notice_cons (n : Notice) (ps : List Piece) :
    erased (.notice n :: ps) = .notice n :: erased ps := rfl

@[simp] theorem erased_parameter_cons (v : Value) (ps : List Piece) :
    erased (.parameter v :: ps) = .parameter .null :: erased ps := rfl

@[simp] theorem erased_parenthesized (ps : List Piece) :
    erased (parenthesized ps) = parenthesized (erased ps) := by
  simp [parenthesized]

@[simp] theorem erased_enclosedIf (b : Bool) (ps : List Piece) :
    erased (enclosedIf b ps) = enclosedIf b (erased ps) := by
  cases b
  · rfl
  · exact erased_parenthesized ps

@[simp] theorem erased_separated (s : String) (items : List (List Piece)) :
    erased (separated s items) = separated s (items.map erased) := by
  fun_induction separated s items with
  | case1 => rfl
  | case2 ps => rfl
  | case3 ps qs rest ih => simp [separated, ih]

@[simp] theorem erased_commaSeparated (items : List (List Piece)) :
    erased (commaSeparated items) = commaSeparated (items.map erased) :=
  erased_separated ", " items

@[simp] theorem erased_callPieces (d : Dialect) (f : SqlFunction) (ps : List Piece) :
    erased (callPieces d f ps) = callPieces d f (erased ps) := by
  simp [callPieces]

@[simp] theorem erased_columnPieces (qualify : Bool) (c : Column) :
    erased (c.pieces qualify) = c.pieces qualify := by
  cases qualify <;> rfl

@[simp] theorem erased_binaryPieces (d : Dialect) (op : BinaryOp) (l r : Expr)
    (ps qs : List Piece) :
    erased (op.pieces d l r ps qs) = op.pieces d l r (erased ps) (erased qs) := by
  cases op with
  | pattern m =>
    simp only [BinaryOp.pieces, PatternMatch.pieces]
    split <;> simp
  | compare op => simp [BinaryOp.pieces]
  | arithmetic op => simp [BinaryOp.pieces]

@[simp] theorem erased_opening (d : Dialect) (op : Comparison) (quantifier : Quantifier) :
    erased (quantifier.opening d op) = quantifier.opening d op := by
  unfold Quantifier.opening
  split
  · rfl
  · split <;> rfl

@[simp] theorem erased_sortKeyPieces (d : Dialect) (e : Expr) (direction : Direction)
    (nulls? : Option NullPlacement) (ps : List Piece) :
    erased (sortKeyPieces d e direction nulls? ps) =
      sortKeyPieces d e direction nulls? (erased ps) := by
  cases nulls? with
  | none => simp [sortKeyPieces]
  | some nulls =>
    simp only [sortKeyPieces]
    split <;> simp

@[simp] theorem erased_clausePieces (keyword : String) (ps? : Option (List Piece)) :
    erased (clausePieces keyword ps?) = clausePieces keyword (ps?.map erased) := by
  cases ps? <;> rfl

@[simp] theorem erased_orderPieces (keys : List (List Piece)) :
    erased (orderPieces keys) = orderPieces (keys.map erased) := by
  cases keys <;> simp [orderPieces]

end Piece

open Piece (erased)

section ErasedLayouts

variable {d : Dialect} {f : Value → Value} {qualify : Bool}

/-- Operands are put into parentheses by what they are, not by their values. -/
theorem BinaryOp.pieces_mapValues (op : BinaryOp) (l r : Expr) (ps qs : List Piece) :
    op.pieces d (l.mapValues f) (r.mapValues f) ps qs = op.pieces d l r ps qs := by
  cases op <;> simp [BinaryOp.pieces, PatternMatch.pieces]

theorem sortKeyPieces_mapValues (e : Expr) (direction : Direction)
    (nulls? : Option NullPlacement) (ps : List Piece) :
    sortKeyPieces d (e.mapValues f) direction nulls? ps = sortKeyPieces d e direction nulls? ps := by
  cases nulls? <;> simp [sortKeyPieces]

/-- Lists of which the members are laid out alike are laid out alike. -/
theorem erased_map_mapValues {layout : Expr → List Piece} {es : List Expr}
    (h : ∀ e ∈ es, erased (layout (e.mapValues f)) = erased (layout e)) :
    ((es.map (Expr.mapValues f)).map layout).map erased = (es.map layout).map erased := by
  rw [List.map_map, List.map_map, List.map_map]
  exact List.map_congr_left h

/-- The layout of an expression does not depend on values if those of its parts do not. -/
theorem Expr.erased_pieces_of_parts (e : Expr)
    (parts : ∀ c ∈ e.children, erased ((c.mapValues f).pieces d qualify) =
      erased (c.pieces d qualify))
    (query : ∀ s, e.query? = some s → erased ((s.mapValues f).pieces d) = erased (s.pieces d)) :
    erased ((e.mapValues f).pieces d qualify) = erased (e.pieces d qualify) := by
  cases e with
  | column c => rfl
  | literal v type? => rfl
  | rowCount => rfl
  | negation e =>
    simp [Expr.mapValues, Expr.pieces, parts e (by simp [Expr.children])]
  | complement e =>
    simp [Expr.mapValues, Expr.pieces, parts e (by simp [Expr.children])]
  | nullTest e negated =>
    simp [Expr.mapValues, Expr.pieces, parts e (by simp [Expr.children])]
  | binary l op r =>
    simp [Expr.mapValues, Expr.pieces, BinaryOp.pieces_mapValues,
      parts l (by simp [Expr.children]), parts r (by simp [Expr.children])]
  | junction kind es =>
    have hparts : ∀ c ∈ es,
        erased (Piece.enclosedIf (c.mapValues f).isJunction ((c.mapValues f).pieces d qualify)) =
          erased (Piece.enclosedIf c.isJunction (c.pieces d qualify)) := by
      intro c hc
      rw [Expr.isJunction_mapValues, Piece.erased_enclosedIf, parts c hc, Piece.erased_enclosedIf]
    simp only [Expr.mapValues, Expr.pieces, mapValuesOfAll_eq, partPieces_eq, List.isEmpty_map]
    split
    · rfl
    · rw [Piece.erased_separated, erased_map_mapValues hparts, Piece.erased_separated]
  | valueCount distinct e =>
    simp [Expr.mapValues, Expr.pieces, parts e (by simp [Expr.children])]
  | apply g e =>
    simp [Expr.mapValues, Expr.pieces, parts e (by simp [Expr.children])]
  | orElse e fallback =>
    simp [Expr.mapValues, Expr.pieces, parts e (by simp [Expr.children]),
      parts fallback (by simp [Expr.children])]
  | extremum g first second rest =>
    have hrest : ∀ c ∈ rest, erased ((c.mapValues f).pieces d qualify) =
        erased (c.pieces d qualify) := fun c hc => parts c (by simp [Expr.children, hc])
    simp only [Expr.mapValues, Expr.pieces, mapValuesOfAll_eq, itemPieces_eq,
      Piece.erased_callPieces, Piece.erased_commaSeparated, List.map_cons,
      erased_map_mapValues hrest,
      parts first (by simp [Expr.children]), parts second (by simp [Expr.children])]
  | joinedText e separator =>
    have he := parts e (by simp [Expr.children])
    cases h : d.separatorClause <;> simp [Expr.mapValues, Expr.pieces, h, he]
  | listMembership e items negated =>
    have hitems : ∀ c ∈ items, erased ((c.mapValues f).pieces d qualify) =
        erased (c.pieces d qualify) := fun c hc => parts c (by simp [Expr.children, hc])
    simp only [Expr.mapValues, Expr.pieces, mapValuesOfAll_eq, itemPieces_eq, List.isEmpty_map]
    split
    · rfl
    · simp only [Piece.erased_append, Piece.erased_enclosedIf, Piece.erased_text_cons,
        Piece.erased_commaSeparated, Expr.isAtomic_mapValues, erased_map_mapValues hitems,
        parts e (by simp [Expr.children])]
  | rowMembership e s negated =>
    simp [Expr.mapValues, Expr.pieces, parts e (by simp [Expr.children]), query s rfl]
  | range e low high negated =>
    simp [Expr.mapValues, Expr.pieces, parts e (by simp [Expr.children]),
      parts low (by simp [Expr.children]), parts high (by simp [Expr.children])]
  | existence s negated => simp [Expr.mapValues, Expr.pieces, query s rfl]
  | quantified e op quantifier s =>
    simp [Expr.mapValues, Expr.pieces, parts e (by simp [Expr.children]), query s rfl]

/-- A clause of a condition is laid out alike if the condition is. -/
theorem erased_conditionClause {keyword : String} {layout : Expr → List Piece} {e? : Option Expr}
    (h : ∀ e ∈ e?.toList, erased (layout (e.mapValues f)) = erased (layout e)) :
    erased (clausePieces keyword ((e?.map (Expr.mapValues f)).map layout)) =
      erased (clausePieces keyword (e?.map layout)) := by
  rcases e? with _ | e
  · rfl
  · simp [h e (by simp)]

theorem Projection.erased_pieces {p : Projection}
    (h : erased ((p.expr.mapValues f).pieces d qualify) = erased (p.expr.pieces d qualify)) :
    erased ((p.mapValues f).pieces d qualify) = erased (p.pieces d qualify) := by
  simp [Projection.pieces, Projection.mapValues, h]

theorem Join.erased_pieces {j : Join}
    (h : ∀ e ∈ j.condition?.toList, erased ((e.mapValues f).pieces d qualify) =
      erased (e.pieces d qualify)) :
    erased ((j.mapValues f).pieces d qualify) = erased (j.pieces d qualify) := by
  cases j with
  | on kind t condition => simp [Join.mapValues, Join.pieces, h condition (by simp [condition?])]
  | cross t => rfl

theorem SortKey.erased_pieces {k : SortKey}
    (h : erased ((k.expr.mapValues f).pieces d qualify) = erased (k.expr.pieces d qualify)) :
    erased ((k.mapValues f).pieces d qualify) = erased (k.pieces d qualify) := by
  simp [SortKey.pieces, SortKey.mapValues, sortKeyPieces_mapValues, h]

/-- Sort keys are laid out alike if their expressions are. -/
theorem erased_map_sortKeys {ks : List SortKey}
    (h : ∀ k ∈ ks, erased ((k.expr.mapValues f).pieces d qualify) =
      erased (k.expr.pieces d qualify)) :
    ((ks.map (SortKey.mapValues f)).map (SortKey.pieces d qualify)).map erased =
      (ks.map (SortKey.pieces d qualify)).map erased := by
  rw [List.map_map, List.map_map, List.map_map]
  exact List.map_congr_left fun k hk => SortKey.erased_pieces (h k hk)

/-- The layout of a select does not depend on values if those of its clauses do not. -/
theorem Select.erased_pieces_of_clauses (s : Select)
    (clauses : ∀ e ∈ s.clauseExprs, ∀ qualify,
      erased ((e.mapValues f).pieces d qualify) = erased (e.pieces d qualify)) :
    erased ((s.mapValues f).pieces d) = erased (s.pieces d) := by
  obtain ⟨hprojections, hjoins, hfilter, hhaving, horder⟩ := s.forall_clauseExprs.1 clauses
  have hcolumns :
      (resultColumns s.qualifies s.source ((s.projections.map (Projection.mapValues f)).map
        (Projection.pieces d s.qualifies))).map erased =
        (resultColumns s.qualifies s.source
          (s.projections.map (Projection.pieces d s.qualifies))).map erased := by
    simp only [resultColumns, List.isEmpty_map]
    split
    · rfl
    · rw [List.map_map, List.map_map, List.map_map]
      exact List.map_congr_left fun p hp => Projection.erased_pieces (hprojections p hp _)
  have hjoins' : erased ((s.joins.map (Join.mapValues f)).flatMap (Join.pieces d s.qualifies)) =
      erased (s.joins.flatMap (Join.pieces d s.qualifies)) := by
    rw [List.flatMap_map, Piece.erased, Piece.erased, List.map_flatMap, List.map_flatMap]
    exact List.flatMap_congr fun j hj =>
      Join.erased_pieces (fun e he => hjoins j hj e he s.qualifies)
  have hconditions : ∀ keyword (e? : Option Expr),
      (∀ e ∈ e?.toList, ∀ qualify,
        erased ((e.mapValues f).pieces d qualify) = erased (e.pieces d qualify)) →
      erased (clausePieces keyword
          ((e?.map (Expr.mapValues f)).map (Expr.pieces d s.qualifies))) =
        erased (clausePieces keyword (e?.map (Expr.pieces d s.qualifies))) :=
    fun keyword e? h => erased_conditionClause fun e he => h e he _
  rw [Select.pieces_eq, Select.pieces_eq, Select.qualifies_mapValues, Select.mapValues_eq]
  simp only [Piece.erased_append, Piece.erased_text_cons, Piece.erased_commaSeparated,
    Piece.erased_orderPieces, hcolumns, hjoins', hconditions _ _ hfilter, hconditions _ _ hhaving,
    erased_map_sortKeys fun k hk => horder k hk s.qualifies]

/-- The layout of an expression does not depend on the values of its literals. -/
theorem Expr.erased_pieces (e : Expr) (qualify : Bool) :
    erased ((e.mapValues f).pieces d qualify) = erased (e.pieces d qualify) :=
  Expr.induction
    (P := fun e => ∀ qualify, erased ((e.mapValues f).pieces d qualify) =
      erased (e.pieces d qualify))
    (Q := fun s => erased ((s.mapValues f).pieces d) = erased (s.pieces d))
    (fun e parts query qualify =>
      e.erased_pieces_of_parts (fun c hc => parts c hc qualify) query)
    Select.erased_pieces_of_clauses e qualify

/-- The layout of a select does not depend on the values of its literals. -/
theorem Select.erased_pieces (s : Select) :
    erased ((s.mapValues f).pieces d) = erased (s.pieces d) :=
  s.erased_pieces_of_clauses fun e _ => e.erased_pieces

theorem CompoundSelect.erased_pieces (c : CompoundSelect) :
    erased ((c.mapValues f).pieces d) = erased (c.pieces d) := by
  have hmembers : erased (memberPieces d (c.mapValues f).rest) =
      erased (memberPieces d c.rest) := by
    simp only [memberPieces, mapValues, List.flatMap_map, Piece.erased, List.map_flatMap]
    refine List.flatMap_congr fun m _ => ?_
    exact congrArg (Piece.text (" " ++ m.1.sql ++ " ") :: ·) m.2.erased_pieces
  simp only [pieces, sortPieces_eq, Piece.erased_append, Piece.erased_orderPieces, hmembers]
  simp only [mapValues, Select.erased_pieces,
    erased_map_sortKeys fun k _ => k.expr.erased_pieces false]

theorem Insert.erased_pieces (i : Insert) :
    erased ((i.mapValues f).pieces d) = erased (i.pieces d) := by
  have hrow : ∀ row : List Expr,
      erased (rowPieces d (row.map (Expr.mapValues f))) = erased (rowPieces d row) := by
    intro row
    simp only [rowPieces, itemPieces_eq, Piece.erased_parenthesized, Piece.erased_commaSeparated,
      erased_map_mapValues fun e _ => e.erased_pieces false]
  have hrows : ((i.mapValues f).rows.map (rowPieces d)).map erased =
      (i.rows.map (rowPieces d)).map erased := by
    simp only [mapValues, List.map_map]
    exact List.map_congr_left fun row _ => hrow row
  simp only [pieces, Piece.erased_append, Piece.erased_text_cons, Piece.erased_commaSeparated,
    hrows]
  rfl

theorem erased_filterPieces (e? : Option Expr) :
    erased (clausePieces " WHERE " (conditionPieces d false (e?.map (Expr.mapValues f)))) =
      erased (clausePieces " WHERE " (conditionPieces d false e?)) := by
  rw [conditionPieces_eq, conditionPieces_eq]
  exact erased_conditionClause fun e _ => e.erased_pieces false

theorem Update.erased_pieces (u : Update) :
    erased ((u.mapValues f).pieces d) = erased (u.pieces d) := by
  have hassignments : ((u.mapValues f).assignments.map (assignmentPieces d)).map erased =
      (u.assignments.map (assignmentPieces d)).map erased := by
    simp only [mapValues, List.map_map]
    refine List.map_congr_left fun a _ => ?_
    simp [assignmentPieces, Expr.erased_pieces]
  simp only [pieces, Piece.erased_append, Piece.erased_text_cons, Piece.erased_commaSeparated,
    hassignments]
  simp only [mapValues, erased_filterPieces]

theorem Delete.erased_pieces (x : Delete) :
    erased ((x.mapValues f).pieces d) = erased (x.pieces d) := by
  have hcondition : (x.mapValues f).condition? = x.condition?.map (Expr.mapValues f) := by
    obtain ⟨table, extent, returning⟩ := x
    cases extent <;> rfl
  simp only [pieces, Piece.erased_append, Piece.erased_text_cons, hcondition, erased_filterPieces]
  rfl

/-- The layout of a statement does not depend on the values of its literals. -/
theorem Statement.erased_pieces (s : Statement) :
    erased ((s.mapValues f).pieces d) = erased (s.pieces d) := by
  cases s with
  | select s => exact s.erased_pieces
  | compound c => exact c.erased_pieces
  | insert i _ => exact i.erased_pieces
  | update u _ => exact u.erased_pieces
  | delete x _ => exact x.erased_pieces

end ErasedLayouts

/-! ### The text around the values -/

/-- How placeholders and identifiers are spelled. A dialect of one's own may choose any spelling. -/
structure Spelling where
  placeholder : Nat → String
  identifier : String → String

/-- The spelling by the placeholder style and the identifier quote of a dialect. -/
def Dialect.spelling (d : Dialect) : Spelling :=
  ⟨d.placeholder, d.quoteIdentifier⟩

/-- The texts of pieces in a spelling, where the next placeholder has the given position. -/
def Piece.textsIn (spelling : Spelling) : Nat → List Piece → List String
  | _, [] => []
  | n, .text s :: ps => s :: textsIn spelling n ps
  | n, .identifier name :: ps => spelling.identifier name :: textsIn spelling n ps
  | n, .parameter _ :: ps => spelling.placeholder n :: textsIn spelling (n + 1) ps
  | n, .quotedText s :: ps => literal s :: textsIn spelling n ps
  | n, .notice _ :: ps => textsIn spelling n ps

/-- Compile a statement for a dialect in a spelling. -/
def Statement.compileIn (s : Statement) (d : Dialect) (spelling : Spelling) : Compiled :=
  ⟨String.join (Piece.textsIn spelling 1 (s.pieces d)), Piece.parameters (s.pieces d)⟩

theorem Piece.textsIn_spelling (d : Dialect) (n : Nat) (ps : List Piece) :
    textsIn d.spelling n ps = texts d n ps := by
  induction ps generalizing n with
  | nil => rfl
  | cons p ps ih =>
    cases p with
    | parameter v => exact congrArg (d.placeholder n :: ·) (ih (n + 1))
    | identifier name => exact congrArg (d.quoteIdentifier name :: ·) (ih n)
    | text s => exact congrArg (s :: ·) (ih n)
    | quotedText s => exact congrArg (literal s :: ·) (ih n)
    | notice k => exact ih n

/-- Compiling for a dialect is compiling in the spelling of the dialect. -/
theorem Statement.compileIn_spelling (s : Statement) (d : Dialect) :
    s.compileIn d d.spelling = s.compile d := by
  rw [compileIn, Piece.textsIn_spelling]
  rfl

/-- The texts of pieces do not depend on the values that they bind. -/
theorem Piece.textsIn_erased (spelling : Spelling) (n : Nat) (ps : List Piece) :
    textsIn spelling n (erased ps) = textsIn spelling n ps := by
  induction ps generalizing n with
  | nil => rfl
  | cons p ps ih => cases p <;> simp [textsIn, ih]

/-- **The text of a statement depends on its skeleton alone.** -/
theorem Statement.sql_eq_of_skeleton {s t : Statement} (h : s.skeleton = t.skeleton)
    (d : Dialect) (spelling : Spelling) :
    (s.compileIn d spelling).sql = (t.compileIn d spelling).sql := by
  have herased : erased (s.pieces d) = erased (t.pieces d) := by
    calc erased (s.pieces d)
        = erased (s.skeleton.pieces d) := s.erased_pieces.symm
      _ = erased (t.skeleton.pieces d) := by rw [h]
      _ = erased (t.pieces d) := t.erased_pieces
  have htexts : Piece.textsIn spelling 1 (s.pieces d) = Piece.textsIn spelling 1 (t.pieces d) := by
    rw [← Piece.textsIn_erased, herased, Piece.textsIn_erased]
  exact congrArg String.join htexts

end TypedSql
