import TypedSql.Proofs.Binding
import TypedSql.Proofs.BindingOrder
import TypedSql.Proofs.ResultColumns
import TypedSql.Proofs.Walks
import TypedSql.Proofs.WrittenLayouts

/-!
# Subqueries in their place

Each select of a statement is written as a whole: its pieces stand side by side among those of the
statement, whatever is around it (`Statement.infix_pieces_of_mem_selects`). For a subquery at any
depth this is an induction over expressions and selects along a walk that marks subqueries. A
select decides for itself on its qualifiers, so these pieces are those that it has on its own, and
its text differs from that on its own in the placeholders alone, which go on counting
(`Spelling.shift`).

A writer adds all of this at the end of what there is (`Writer.Extends`): `writing_appends`.
-/

namespace TypedSql

/-! ### Selects inside of statements -/

namespace Piece

theorem infix_enclosedIf (compound : Bool) (ps : List Piece) : ps <:+: enclosedIf compound ps := by
  cases compound with
  | false => exact List.infix_rfl
  | true => exact ⟨[.text "("], [.text ")"], rfl⟩

theorem infix_callPieces (d : Dialect) (f : SqlFunction) (ps : List Piece) :
    ps <:+: callPieces d f ps :=
  ⟨[.text (d.functionName f), .text "("], [.text ")"], rfl⟩

theorem infix_separated (separator : String) {items : List (List Piece)} {ps : List Piece}
    (h : ps ∈ items) : ps <:+: separated separator items := by
  fun_induction separated separator items with
  | case1 => cases h
  | case2 qs =>
    obtain rfl := List.mem_singleton.1 h
    exact List.infix_rfl
  | case3 qs rs rest ih =>
    obtain rfl | h := List.mem_cons.1 h
    · exact List.infix_append_left
    · exact List.infix_append_of_infix_right (List.infix_cons (ih h))

end Piece

open Piece (infix_enclosedIf infix_callPieces infix_separated)
open List (infix_append_of_infix_left infix_append_of_infix_right infix_cons)

section Infixes

variable (d : Dialect)

theorem infix_between (operator : String) (l r : Expr) (ps qs : List Piece) :
    ps <:+: Piece.enclosedIf (!l.isAtomic) ps ++ .text operator ::
        Piece.enclosedIf (!r.isAtomic) qs ∧
      qs <:+: Piece.enclosedIf (!l.isAtomic) ps ++ .text operator ::
        Piece.enclosedIf (!r.isAtomic) qs :=
  ⟨infix_append_of_infix_left (infix_enclosedIf _ ps),
    infix_append_of_infix_right (infix_cons (infix_enclosedIf _ qs))⟩

theorem BinaryOp.infix_pieces (op : BinaryOp) (l r : Expr) (ps qs : List Piece) :
    ps <:+: op.pieces d l r ps qs ∧ qs <:+: op.pieces d l r ps qs := by
  cases op with
  | compare op => exact infix_between _ l r ps qs
  | arithmetic op => exact infix_between _ l r ps qs
  | pattern m =>
    show ps <:+: m.pieces d l r ps qs ∧ qs <:+: m.pieces d l r ps qs
    unfold PatternMatch.pieces
    cases m.ignoresCase && !d.supportsIlike with
    | false => exact infix_between _ l r ps qs
    | true =>
      rw [if_pos rfl, List.append_assoc]
      exact ⟨infix_append_of_infix_left (infix_cons (infix_cons List.infix_rfl)),
        infix_append_of_infix_right (infix_cons List.infix_append_left)⟩

theorem Expr.isEmptyMembership_eq_true_iff {e : Expr} :
    e.isEmptyMembership = true ↔ ∃ subject negated, e = .listMembership subject [] negated := by
  cases e with
  | listMembership subject items negated => cases items <;> simp [isEmptyMembership]
  | _ => simp [isEmptyMembership]

/-- A part of an expression is written as a whole where the expression is, if it is written at
all. -/
theorem Expr.infix_pieces_of_child {e c : Expr} (hc : c ∈ e.children)
    (he : e.isEmptyMembership = false) (qualify : Bool) :
    c.pieces d qualify <:+: e.pieces d qualify := by
  cases e with
  | column c' => cases hc
  | literal v type? => cases hc
  | rowCount => cases hc
  | existence query negated => cases hc
  | negation e =>
    obtain rfl := List.mem_singleton.1 hc
    exact infix_cons (infix_enclosedIf _ _)
  | complement e =>
    obtain rfl := List.mem_singleton.1 hc
    exact ⟨[.text "NOT ("], [.text ")"], rfl⟩
  | nullTest e negated =>
    obtain rfl := List.mem_singleton.1 hc
    exact infix_append_of_infix_left (infix_enclosedIf _ _)
  | valueCount distinct e =>
    obtain rfl := List.mem_singleton.1 hc
    exact List.infix_append_right.trans (infix_callPieces d _ _)
  | apply f e =>
    obtain rfl := List.mem_singleton.1 hc
    exact infix_callPieces d _ _
  | joinedText e separator =>
    obtain rfl := List.mem_singleton.1 hc
    refine List.IsInfix.trans ?_ (infix_callPieces d _ _)
    split
    · exact List.infix_append_left
    · exact infix_separated ", " (.head _)
  | rowMembership e query negated =>
    obtain rfl := List.mem_singleton.1 hc
    rw [pieces]
    exact infix_append_of_infix_left (infix_append_of_infix_left (infix_enclosedIf _ _))
  | quantified e op quantifier query =>
    obtain rfl := List.mem_singleton.1 hc
    rw [pieces, List.append_assoc, List.append_assoc]
    exact infix_append_of_infix_left (infix_enclosedIf _ _)
  | binary l op r =>
    have hboth := op.infix_pieces d l r (l.pieces d qualify) (r.pieces d qualify)
    obtain rfl | hc := List.mem_cons.1 hc
    · exact hboth.1
    · obtain rfl := List.mem_singleton.1 hc
      exact hboth.2
  | junction kind parts =>
    have hmem : Piece.enclosedIf c.isJunction (c.pieces d qualify) ∈
        partPieces d qualify parts := by
      rw [partPieces_eq]
      exact List.mem_map.2 ⟨c, hc, rfl⟩
    have hparts : parts ≠ [] := List.ne_nil_of_mem hc
    rw [pieces, if_neg (by simpa using hparts)]
    exact (infix_enclosedIf _ _).trans (infix_separated _ hmem)
  | orElse e fallback =>
    have hmem := List.mem_map_of_mem (f := pieces d qualify) hc
    exact (infix_separated ", " hmem).trans (infix_callPieces d _ _)
  | extremum f first second rest =>
    have hmem := List.mem_map_of_mem (f := pieces d qualify) hc
    rw [pieces, itemPieces_eq]
    exact (infix_separated ", " hmem).trans (infix_callPieces d _ _)
  | listMembership e items negated =>
    have hitems : items ≠ [] := by
      rintro rfl
      cases he
    rw [pieces, if_neg (by simpa using hitems), List.append_assoc, itemPieces_eq]
    obtain rfl | hc := List.mem_cons.1 hc
    · exact infix_append_of_infix_left (infix_enclosedIf _ _)
    · refine infix_append_of_infix_right (infix_cons (infix_append_of_infix_left ?_))
      exact infix_separated ", " (List.mem_map_of_mem hc)
  | range e low high negated =>
    rw [pieces, List.append_assoc]
    obtain rfl | hc := List.mem_cons.1 hc
    · exact infix_append_of_infix_left (infix_enclosedIf _ _)
    · refine infix_append_of_infix_right (infix_cons ?_)
      obtain rfl | hc := List.mem_cons.1 hc
      · exact infix_append_of_infix_left (infix_enclosedIf _ _)
      · obtain rfl := List.mem_singleton.1 hc
        exact infix_append_of_infix_right (infix_cons (infix_enclosedIf _ _))

/-- A subquery is written as a whole where its expression is. -/
theorem Expr.infix_pieces_of_query {e : Expr} {s : Select} (hs : e.query? = some s)
    (qualify : Bool) : s.pieces d <:+: e.pieces d qualify := by
  cases e with
  | existence query negated =>
    cases hs
    exact ⟨[.text (if negated then "NOT EXISTS (" else "EXISTS (")], [.text ")"], rfl⟩
  | rowMembership e query negated =>
    have hcompared : (rowMembership e query negated).compared? = some s := hs
    exact infix_pieces_of_compared hcompared d qualify
  | quantified e op quantifier query =>
    have hcompared : (quantified e op quantifier query).compared? = some s := hs
    exact infix_pieces_of_compared hcompared d qualify
  | _ => cases hs

theorem infix_flatMap {α : Type} {x : α} {xs : List α} (hx : x ∈ xs) (f : α → List Piece) :
    f x <:+: xs.flatMap f :=
  List.infix_of_mem_flatten (List.mem_map_of_mem hx)

theorem SortKey.infix_pieces (k : SortKey) (qualify : Bool) :
    k.expr.pieces d qualify <:+: k.pieces d qualify := by
  have hsorted : k.expr.pieces d qualify <:+:
      k.expr.pieces d qualify ++ [.text (" " ++ k.direction.sql)] := List.infix_append_left
  unfold pieces sortKeyPieces
  cases k.nulls? with
  | none => exact hsorted
  | some nulls =>
    cases d.supportsNullPlacement with
    | true => exact infix_append_of_infix_left hsorted
    | false => exact infix_append_of_infix_right (infix_cons hsorted)

theorem Join.infix_pieces {j : Join} {e : Expr} (he : e ∈ j.condition?.toList) (qualify : Bool) :
    e.pieces d qualify <:+: j.pieces d qualify := by
  cases j with
  | on kind t condition =>
    obtain rfl : e = condition := by simpa [condition?] using he
    exact infix_append_of_infix_right (infix_cons List.infix_rfl)
  | cross t => cases he

theorem infix_conditionClause (keyword : String) (e? : Option Expr) {e : Expr}
    (he : e ∈ e?.toList) (qualify : Bool) :
    e.pieces d qualify <:+: clausePieces keyword (e?.map (Expr.pieces d qualify)) := by
  cases e? with
  | none => cases he
  | some e' =>
    obtain rfl : e = e' := by simpa using he
    exact infix_cons List.infix_rfl

theorem infix_orderPieces {items : List (List Piece)} {ps : List Piece} (h : ps ∈ items) :
    ps <:+: orderPieces items := by
  rw [orderPieces, if_neg (by simpa using List.ne_nil_of_mem h)]
  exact infix_cons (infix_separated ", " h)

/-- The clauses of a select are written as a whole. -/
theorem Select.infix_pieces (s : Select) :
    ∀ ps ∈ [Piece.commaSeparated (resultColumns s.qualifies s.source
          (s.projections.map (Projection.pieces d s.qualifies))),
        s.joins.flatMap (Join.pieces d s.qualifies),
        clausePieces " WHERE " (s.filter?.map (Expr.pieces d s.qualifies)),
        clausePieces " HAVING " (s.having?.map (Expr.pieces d s.qualifies)),
        orderPieces (s.orderBy.map (SortKey.pieces d s.qualifies))], ps <:+: s.pieces d := by
  have hparts : s.pieces d =
      [.text "SELECT " :: (if s.distinct then [.text "DISTINCT "] else []),
        Piece.commaSeparated (resultColumns s.qualifies s.source
          (s.projections.map (Projection.pieces d s.qualifies))),
        .text " FROM " :: s.source.sourcePieces,
        s.joins.flatMap (Join.pieces d s.qualifies),
        clausePieces " WHERE " (s.filter?.map (Expr.pieces d s.qualifies)),
        clausePieces " GROUP BY " (if s.groupBy.isEmpty then none
          else some (Piece.commaSeparated (s.groupBy.map (Column.pieces s.qualifies)))),
        clausePieces " HAVING " (s.having?.map (Expr.pieces d s.qualifies)),
        orderPieces (s.orderBy.map (SortKey.pieces d s.qualifies)),
        pagePieces d s.limit? s.offset?].flatten := by
    simp [s.pieces_eq d]
  -- A member of the flattened list stands in it as a whole, so the clauses need no bookkeeping of
  -- what is before and after them.
  intro ps hps
  rw [hparts]
  refine List.infix_of_mem_flatten ?_
  simp only [List.mem_cons, List.not_mem_nil, or_false] at hps ⊢
  tauto

/-- The expressions of a select are written in its clauses, with the qualifiers that it decides
on. -/
theorem Select.infix_pieces_of_clause {s : Select} {e : Expr} (he : e ∈ s.clauseExprs) :
    e.pieces d s.qualifies <:+: s.pieces d := by
  have hclauses := s.infix_pieces d
  simp only [List.forall_mem_cons] at hclauses
  obtain ⟨hresults, hjoins, hfilter, hhaving, horder, -⟩ := hclauses
  suffices h : ∀ e ∈ s.clauseExprs, e.pieces d s.qualifies <:+: s.pieces d from h e he
  refine s.forall_clauseExprs.2 ⟨fun p hp => ?_, fun j hj e he => ?_, fun e he => ?_,
    fun e he => ?_, fun k hk => ?_⟩
  · have hprojection : p.pieces d s.qualifies ∈ resultColumns s.qualifies s.source
        (s.projections.map (Projection.pieces d s.qualifies)) := by
      have hne : s.projections ≠ [] := List.ne_nil_of_mem hp
      rw [resultColumns, if_neg (by simpa using hne)]
      exact List.mem_map_of_mem hp
    exact List.infix_append_left.trans ((infix_separated ", " hprojection).trans hresults)
  · exact (Join.infix_pieces d he s.qualifies).trans ((infix_flatMap hj _).trans hjoins)
  · exact (infix_conditionClause d " WHERE " s.filter? he s.qualifies).trans hfilter
  · exact (infix_conditionClause d " HAVING " s.having? he s.qualifies).trans hhaving
  · have hkey := infix_orderPieces (List.mem_map_of_mem (f := SortKey.pieces d s.qualifies) hk)
    exact (k.infix_pieces d s.qualifies).trans (hkey.trans horder)

end Infixes

/-! ### Selects of statements -/

/-- Marks for subqueries; a sort key is written twice where the placement of NULL is a sort key of
its own. -/
def Dialect.subqueryMarks (d : Dialect) : Marks Select where
  opening e := e.query?.toList
  middle := fun _ => []
  repeatsPlacedKeys := !d.supportsNullPlacement

/-- The selects that a statement consists of. -/
def Statement.members : Statement → List Select
  | .select s => [s]
  | .compound c => c.members
  | .insert _ _ | .update _ _ | .delete _ _ => []

/-- The selects that are written for a statement: those that it consists of, and the subqueries at
any depth. -/
def Statement.selects (s : Statement) (d : Dialect) : List Select :=
  s.members ++ s.walk d.subqueryMarks

section Selects

variable {d : Dialect}

/-- A subquery that a walk finds in an expression is written as a whole where the expression is. -/
theorem Expr.infix_pieces_of_mem_walk (e : Expr) (qualify : Bool) :
    ∀ s ∈ e.walk d.subqueryMarks, s.pieces d <:+: e.pieces d qualify := by
  -- The qualifiers change at each select in between, so the induction is for all of them.
  refine Expr.induction
    (P := fun e => ∀ qualify, ∀ s ∈ e.walk d.subqueryMarks, s.pieces d <:+: e.pieces d qualify)
    (Q := fun t => ∀ s ∈ t.walk d.subqueryMarks, s.pieces d <:+: t.pieces d)
    (fun e parts query qualify s hs => ?_) (fun t clauses s hs => ?_) e qualify
  · cases he : e.isEmptyMembership with
    | true =>
      -- Nothing is written for the parts of membership in an empty list.
      obtain ⟨subject, negated, rfl⟩ := isEmptyMembership_eq_true_iff.1 he
      cases hs
    | false =>
      obtain hs | hs | ⟨c, hc, hs⟩ | ⟨t, ht, hs⟩ := Expr.mem_walk hs
      · exact infix_pieces_of_query d (by simpa [Dialect.subqueryMarks] using hs) qualify
      · cases hs
      · exact (parts c hc qualify s hs).trans (infix_pieces_of_child d hc he qualify)
      · exact (query t ht s hs).trans (infix_pieces_of_query d ht qualify)
  · obtain ⟨e, he, hs⟩ := Select.mem_walk hs
    exact (clauses e he _ s hs).trans (Select.infix_pieces_of_clause d he)

theorem Select.infix_pieces_of_mem_walk (t : Select) :
    ∀ s ∈ t.walk d.subqueryMarks, s.pieces d <:+: t.pieces d := by
  intro s hs
  obtain ⟨e, he, hs⟩ := Select.mem_walk hs
  exact (e.infix_pieces_of_mem_walk _ s hs).trans (Select.infix_pieces_of_clause d he)

theorem infix_filterPieces {e? : Option Expr} {s : Select}
    (hs : s ∈ walkClause d.subqueryMarks e?) :
    s.pieces d <:+: clausePieces " WHERE " (conditionPieces d false e?) := by
  rw [walkClause_eq] at hs
  obtain ⟨e, he, hs⟩ := List.mem_flatMap.1 hs
  rw [conditionPieces_eq]
  exact (e.infix_pieces_of_mem_walk false s hs).trans
    (infix_conditionClause d " WHERE " e? he false)

theorem CompoundSelect.infix_pieces_of_member {c : CompoundSelect} {s : Select}
    (hs : s ∈ c.members) : s.pieces d <:+: c.pieces d := by
  refine infix_append_of_infix_left (infix_append_of_infix_left ?_)
  obtain rfl | hs := List.mem_cons.1 hs
  · exact List.infix_append_left
  · obtain ⟨m, hm, rfl⟩ := List.mem_map.1 hs
    have hmember : m.2.pieces d <:+: .text (" " ++ m.1.sql ++ " ") :: m.2.pieces d :=
      infix_cons List.infix_rfl
    exact infix_append_of_infix_right (hmember.trans
      (infix_flatMap hm fun m => .text (" " ++ m.1.sql ++ " ") :: m.2.pieces d))

theorem CompoundSelect.infix_pieces_of_mem_walk {c : CompoundSelect} {s : Select}
    (hs : s ∈ c.walk d.subqueryMarks) : s.pieces d <:+: c.pieces d := by
  obtain hs | hs := List.mem_append.1 hs
  · obtain ⟨t, ht, hs⟩ := List.mem_flatMap.1 hs
    exact (t.infix_pieces_of_mem_walk s hs).trans (infix_pieces_of_member ht)
  · rw [walkSortKeys_eq] at hs
    obtain ⟨k, hk, hs⟩ := List.mem_flatMap.1 hs
    have hkey : s.pieces d <:+: k.pieces d false :=
      (k.expr.infix_pieces_of_mem_walk false s (Piece.mem_keyView.1 hs)).trans
        (k.infix_pieces d false)
    have hmem : k.pieces d false ∈ sortPieces d false c.orderBy := by
      rw [sortPieces_eq]
      exact List.mem_map_of_mem hk
    exact infix_append_of_infix_left
      (infix_append_of_infix_right (hkey.trans (infix_orderPieces hmem)))

theorem Insert.infix_pieces_of_mem_walk {i : Insert} {s : Select}
    (hs : s ∈ i.walk d.subqueryMarks) : s.pieces d <:+: i.pieces d := by
  obtain ⟨row, hrow, hs⟩ := List.mem_flatMap.1 hs
  obtain ⟨e, he, hs⟩ := List.mem_flatMap.1 hs
  have hitem : e.pieces d false ∈ itemPieces d false row := by
    rw [itemPieces_eq]
    exact List.mem_map_of_mem he
  have hinside : s.pieces d <:+: rowPieces d row :=
    ((e.infix_pieces_of_mem_walk false s hs).trans (infix_separated ", " hitem)).trans
      (infix_enclosedIf true _)
  exact infix_append_of_infix_left (infix_append_of_infix_right
    (infix_cons (hinside.trans (infix_separated ", " (List.mem_map_of_mem hrow)))))

theorem Update.infix_pieces_of_mem_walk {u : Update} {s : Select}
    (hs : s ∈ u.walk d.subqueryMarks) : s.pieces d <:+: u.pieces d := by
  refine infix_append_of_infix_left ?_
  obtain hs | hs := List.mem_append.1 hs
  · obtain ⟨a, ha, hs⟩ := List.mem_flatMap.1 hs
    have hvalue : s.pieces d <:+: assignmentPieces d a :=
      infix_append_of_infix_right (infix_cons (a.2.infix_pieces_of_mem_walk false s hs))
    exact infix_append_of_infix_left (infix_append_of_infix_right
      (infix_cons (hvalue.trans (infix_separated ", " (List.mem_map_of_mem ha)))))
  · exact infix_append_of_infix_right (infix_filterPieces hs)

/-- The selects of a statement are written as a whole. -/
theorem Statement.infix_pieces_of_mem_selects {st : Statement} {s : Select}
    (hs : s ∈ st.selects d) : s.pieces d <:+: st.pieces d := by
  obtain hs | hs := List.mem_append.1 hs
  · cases st with
    | select t =>
      obtain rfl := List.mem_singleton.1 hs
      exact List.infix_rfl
    | compound c => exact CompoundSelect.infix_pieces_of_member hs
    | _ => cases hs
  · cases st with
    | select t => exact t.infix_pieces_of_mem_walk s hs
    | compound c => exact CompoundSelect.infix_pieces_of_mem_walk hs
    | insert i _ => exact Insert.infix_pieces_of_mem_walk hs
    | update u _ => exact Update.infix_pieces_of_mem_walk hs
    | delete x _ =>
      exact infix_append_of_infix_left (infix_append_of_infix_right (infix_filterPieces hs))

end Selects

/-! ### Placeholders that go on counting -/

/-- The spelling that goes on counting placeholders after some. -/
def Spelling.shift (spelling : Spelling) (n : Nat) : Spelling :=
  { spelling with placeholder := fun k => spelling.placeholder (n + k) }

/-- All placeholders are spelled alike. -/
def Spelling.IsUniform (spelling : Spelling) : Prop :=
  ∀ m n, spelling.placeholder m = spelling.placeholder n

theorem Spelling.IsUniform.shift_eq {spelling : Spelling} (h : spelling.IsUniform) (n : Nat) :
    spelling.shift n = spelling := by
  have hplaceholder : (fun k => spelling.placeholder (n + k)) = spelling.placeholder :=
    funext fun k => h (n + k) k
  rw [shift, hplaceholder]

/-- Question marks are spelled alike. -/
theorem Dialect.isUniform_spelling {d : Dialect} (h : d.placeholderStyle = .questionMark) :
    d.spelling.IsUniform := by
  intro m n
  show d.placeholderStyle.placeholder m = d.placeholderStyle.placeholder n
  rw [h]
  rfl

theorem Piece.textsIn_shift (spelling : Spelling) (n m : Nat) (ps : List Piece) :
    textsIn (spelling.shift n) m ps = textsIn spelling (n + m) ps := by
  induction ps generalizing m with
  | nil => rfl
  | cons p ps ih =>
    cases p with
    | parameter v => exact congrArg (spelling.placeholder (n + m) :: ·) (ih (m + 1))
    | identifier name => exact congrArg (spelling.identifier name :: ·) (ih m)
    | text s => exact congrArg (s :: ·) (ih m)
    | quotedText s => exact congrArg (literal s :: ·) (ih m)
    | notice k => exact ih m

/-- The text and the values of pieces in a spelling. -/
def Compiled.ofPiecesIn (spelling : Spelling) (ps : List Piece) : Compiled :=
  ⟨String.join (Piece.textsIn spelling 1 ps), Piece.parameters ps⟩

/-! ### Writing at the end -/

/-- A writer goes on to another one: it adds a text and values at the end of what there is, takes
back nothing that there was to notice, and qualifies columns as before. -/
structure Writer.Extends (w : Writer) (added : Compiled) (w' : Writer) : Prop where
  text : w'.text = w.text ++ added.sql
  values : w'.values = w.values ++ added.parameters
  notices : w.notices <+: w'.notices
  qualify : w'.qualify = w.qualify

/-- An act of writing adds its layout, with the placeholders counted on from the values that there
are. -/
theorem Writing.LaysOut.extends_after {spelling : Spelling} {act : Writing}
    {layout : Bool → List Piece} (h : act.LaysOut spelling layout) (w : Writer) :
    w.Extends (.ofPiecesIn (spelling.shift w.values.length) (layout w.qualify)) (w.after act) := by
  rw [h w, Compiled.ofPiecesIn, Piece.textsIn_shift]
  exact ⟨rfl, rfl, List.prefix_append _ _, rfl⟩

/-- What is written for pieces in the middle of others. The placeholders before them are counted. -/
theorem Statement.compileIn_of_pieces {st : Statement} {d : Dialect} (spelling : Spelling)
    {before ps after : List Piece} (h : before ++ ps ++ after = st.pieces d) :
    (st.compileIn d spelling).sql = (Compiled.ofPiecesIn spelling before).sql ++
        (Compiled.ofPiecesIn (spelling.shift (Piece.parameters before).length) ps).sql ++
        (Compiled.ofPiecesIn (spelling.shift (Piece.parameters (before ++ ps)).length) after).sql ∧
      (st.compileIn d spelling).parameters =
        Piece.parameters before ++ Piece.parameters ps ++ Piece.parameters after := by
  rw [compileIn, ← h]
  refine ⟨?_, by simp only [Piece.parameters_append]⟩
  simp only [Compiled.ofPiecesIn, Piece.textsIn_shift, Piece.textsIn_append, String.join_append,
    Nat.add_comm]

/-- **Writing is append-only and compositional.** A writer that goes through a statement arrives at
the compiled statement. In any state, it writes an expression or a select at the end of what there
is and goes on with the qualifiers from before. What it adds depends on nothing but the tree, the
dialect, the number of values so far, and for an expression the qualifiers; where placeholders are
spelled alike, as question marks are, not on the number either. For a select it is what the select
compiles to on its own, with the placeholders counted on. So all selects of a statement, at any
depth, are compiled in their place. -/
theorem writing_appends (d : Dialect) (spelling : Spelling) :
    (∀ st : Statement,
        st.compileIn d spelling = (Writer.start.after (st.write d spelling)).finish) ∧
      (∀ (e : Expr) (qualify : Bool) (n : Nat), ∃ added : Compiled, ∀ w : Writer,
        w.qualify = qualify → w.values.length = n →
          w.Extends added (w.after (e.write d spelling))) ∧
      (∀ (s : Select) (n : Nat), ∃ added : Compiled, ∀ w : Writer, w.values.length = n →
        w.Extends added (w.after (s.write d spelling))) ∧
      (spelling.IsUniform →
        (∀ (e : Expr) (qualify : Bool), ∃ added : Compiled, ∀ w : Writer, w.qualify = qualify →
          w.Extends added (w.after (e.write d spelling))) ∧
        ∀ s : Select, ∃ added : Compiled, ∀ w : Writer,
          w.Extends added (w.after (s.write d spelling))) ∧
      (d.placeholderStyle = .questionMark → d.spelling.IsUniform) ∧
      (∀ (s : Select) (w : Writer), w.Extends
        ⟨((Statement.select s).compileIn d (spelling.shift w.values.length)).sql,
          ((Statement.select s).compileIn d spelling).parameters⟩
        (w.after (s.write d spelling))) ∧
      ∀ st : Statement, ∀ s ∈ st.selects d, ∃ before after : Compiled,
        (st.compileIn d spelling).sql = before.sql ++
          ((Statement.select s).compileIn d (spelling.shift before.parameters.length)).sql ++
            after.sql ∧
        (st.compileIn d spelling).parameters = before.parameters ++
          ((Statement.select s).compileIn d spelling).parameters ++ after.parameters := by
  have hexpr : ∀ (e : Expr) (w : Writer),
      w.Extends (.ofPiecesIn (spelling.shift w.values.length) (e.pieces d w.qualify))
        (w.after (e.write d spelling)) := fun e w => e.writesPieces.extends_after w
  have hselect : ∀ (s : Select) (w : Writer),
      w.Extends (.ofPiecesIn (spelling.shift w.values.length) (s.pieces d))
        (w.after (s.write d spelling)) := fun s w => s.writesPieces.extends_after w
  refine ⟨Statement.compileIn_eq_finish d spelling,
    fun e qualify n => ⟨.ofPiecesIn (spelling.shift n) (e.pieces d qualify), ?_⟩,
    fun s n => ⟨.ofPiecesIn (spelling.shift n) (s.pieces d), ?_⟩, fun h =>
    ⟨fun e qualify => ⟨.ofPiecesIn spelling (e.pieces d qualify), ?_⟩,
      fun s => ⟨.ofPiecesIn spelling (s.pieces d), fun w => ?_⟩⟩,
    Dialect.isUniform_spelling, hselect, fun st s hs => ?_⟩
  · rintro w rfl rfl
    exact hexpr e w
  · rintro w rfl
    exact hselect s w
  -- Where placeholders are spelled alike, going on to count them changes nothing.
  · rintro w rfl
    simpa only [h.shift_eq] using hexpr e w
  · simpa only [h.shift_eq] using hselect s w
  · obtain ⟨before, after, hpieces⟩ := Statement.infix_pieces_of_mem_selects hs
    exact ⟨.ofPiecesIn spelling before, .ofPiecesIn _ after,
      Statement.compileIn_of_pieces spelling hpieces⟩

/-- The offers above a price of five that cost less than goods of an enclosing statement. -/
def lowerOffersAboveFive : Select :=
  { lowerOffers with
    filter? := some (.junction .and [offeredForLess,
      .binary (.column offeredPrice) (.compare .gt) (.literal (.int 5) (some .integer))]) }

/-- The goods between two prices for which there is such an offer. The offers qualify their columns,
and the condition after them does not. -/
def goodsWithOffers : Select :=
  { Select.ofTable goods with
    filter? := some (.junction .and
      [priceAgainst .gt 6, .existence lowerOffersAboveFive false, priceAgainst .lt 9]) }

/-- The writer of this, in front of the offers. -/
def Writer.beforeOffers : Writer :=
  ⟨"SELECT \"price\" FROM \"goods\" WHERE \"price\" > $1 AND EXISTS (", [.int 6], [], false⟩

theorem writing_appends_goodsWithOffers :
    (Statement.select goodsWithOffers).compile .postgres =
        (Writer.start.after (goodsWithOffers.write .postgres Dialect.postgres.spelling)).finish ∧
      Writer.beforeOffers.Extends
        ⟨"SELECT \"o\".\"price\" FROM \"shop\".\"offers\" AS \"o\" " ++
          "WHERE \"o\".\"price\" < \"goods\".\"price\" AND \"o\".\"price\" > $2", [.int 5]⟩
        (Writer.beforeOffers.after
          (lowerOffersAboveFive.write .postgres Dialect.postgres.spelling)) ∧
      (∃ added : Compiled, ∀ w : Writer, w.values.length = Writer.beforeOffers.values.length →
        w.Extends added
          (w.after (lowerOffersAboveFive.write .postgres Dialect.postgres.spelling))) ∧
      (∃ added : Compiled, Writer.beforeOffers.Extends added
        (Writer.beforeOffers.after
          ((priceAgainst .lt 9).write .postgres Dialect.postgres.spelling))) ∧
      (∃ added : Compiled, ∀ w : Writer, w.Extends added
        (w.after (lowerOffersAboveFive.write .sqlite Dialect.sqlite.spelling))) ∧
      ∃ before after : Compiled,
        ((Statement.select goodsWithOffers).compileIn .postgres Dialect.postgres.spelling).sql =
          before.sql ++ ((Statement.select lowerOffersAboveFive).compileIn .postgres
            (Dialect.postgres.spelling.shift before.parameters.length)).sql ++ after.sql ∧
        [.int 6, .int 5, .int 9] = before.parameters ++ [.int 5] ++ after.parameters := by
  obtain ⟨hfinish, hexpr, hselect, -, -, hon, hin⟩ :=
    writing_appends .postgres Dialect.postgres.spelling
  obtain ⟨-, -, -, huniform, hmarks, -, -⟩ := writing_appends .sqlite Dialect.sqlite.spelling
  have hmem : lowerOffersAboveFive ∈ (Statement.select goodsWithOffers).selects .postgres :=
    .tail _ (.head _)
  obtain ⟨added, hprice⟩ := hexpr (priceAgainst .lt 9) false 1
  refine ⟨?_, hon lowerOffersAboveFive Writer.beforeOffers, hselect lowerOffersAboveFive 1,
    ⟨added, hprice _ rfl rfl⟩, (huniform (hmarks rfl)).2 lowerOffersAboveFive,
    hin (.select goodsWithOffers) _ hmem⟩
  rw [← Statement.compileIn_spelling, hfinish]
  rfl

end TypedSql
