import TypedSql.Proofs.Emulation
import TypedSql.Proofs.RoundTrip

/-!
# What a dialect is sent

Dialects word the same layout differently: they have names of their own for functions and truth
values, a clause for a separator, and a limit that is none. `Dialect.Spells d ps qs` says that `ps`
is how `d` words the layout `qs`, and `Dialect.Sends d e qualify t` that the text of `e` for `d` is
the wording of a text that is read as `t`. A function that is read is thus the one that the name
stands for, which two functions may share.

Every dialect words the layout of the emulating expression: `Expr.sends_sent`. With what that
expression means, all dialects are sent forms that mean the same.
-/

namespace TypedSql

namespace Piece

/-- A piece letter by letter. Nothing is written for a notice. -/
def letters : Piece → List Piece
  | .text s => s.toList.map fun c => .text (String.singleton c)
  | .notice _ => []
  | p => [p]

/-- Pieces letter by letter, where it does not show how a text was put together. -/
def spelling (ps : List Piece) : List Piece :=
  ps.flatMap letters

end Piece

/-- How a dialect words a layout. -/
inductive Dialect.Spells (d : Dialect) : List Piece → List Piece → Prop
  | alike {ps qs : List Piece} (h : Piece.spelling ps = Piece.spelling qs) : Spells d ps qs
  | append {ps ps' qs qs' : List Piece} (h : Spells d ps qs) (h' : Spells d ps' qs') :
      Spells d (ps ++ ps') (qs ++ qs')
  | functionName (f : SqlFunction) : Spells d [.text (d.functionName f)] [.text f.name]
  | truthValue (b : Bool) :
      Spells d [.text (d.booleanLiteral b)] [.text (if b then "TRUE" else "FALSE")]
  | separator (h : d.separatorClause = true) (s : String) :
      Spells d [.text " SEPARATOR ", .quotedText s] [.text ", ", .parameter (.text s)]
  | unbounded {s : String} (h : d.unboundedLimit? = some s) (n : Nat) :
      Spells d [.text (" LIMIT " ++ s), .text (" OFFSET " ++ toString n)]
        [.text (" OFFSET " ++ toString n)]

/-- The text of an expression for a dialect is how the dialect words a text that is read as a given
form. -/
def Dialect.Sends (d : Dialect) (e : Expr) (qualify : Bool) (t : SqlExpr) : Prop :=
  ∃ layout, d.Spells (e.pieces d qualify) layout ∧
    readExpr (Piece.sql .postgres layout) (Piece.parameters layout) = some t

namespace Dialect.Spells

variable {d : Dialect} {ps qs : List Piece}

theorem refl (ps : List Piece) : d.Spells ps ps :=
  .alike rfl

theorem cons (p : Piece) (h : d.Spells ps qs) : d.Spells (p :: ps) (p :: qs) :=
  .append (.refl [p]) h

theorem parenthesized (h : d.Spells ps qs) :
    d.Spells (Piece.parenthesized ps) (Piece.parenthesized qs) :=
  .append (.cons _ h) (.refl _)

theorem enclosedIf (b : Bool) (h : d.Spells ps qs) :
    d.Spells (Piece.enclosedIf b ps) (Piece.enclosedIf b qs) := by
  cases b
  · exact h
  · exact h.parenthesized

theorem callPieces (f : SqlFunction) (h : d.Spells ps qs) :
    d.Spells (callPieces d f ps) (callPieces .postgres f qs) :=
  .append (.append (.functionName f) (.cons _ h)) (.refl _)

section Lists

variable {α : Type} {items : List α} {f g : α → List Piece}

theorem flatMap (h : ∀ a ∈ items, d.Spells (f a) (g a)) :
    d.Spells (items.flatMap f) (items.flatMap g) := by
  induction items with
  | nil => exact .refl []
  | cons a items ih =>
    rw [List.flatMap_cons, List.flatMap_cons]
    exact (h a (by simp)).append (ih fun b hb => h b (List.mem_cons_of_mem a hb))

theorem separated (s : String) (h : ∀ a ∈ items, d.Spells (f a) (g a)) :
    d.Spells (Piece.separated s (items.map f)) (Piece.separated s (items.map g)) := by
  induction items with
  | nil => exact .refl []
  | cons a items ih =>
    have ha := h a (by simp)
    have hrest := ih fun b hb => h b (List.mem_cons_of_mem a hb)
    cases items with
    | nil => exact ha
    | cons b items => exact ha.append (.cons _ hrest)

theorem clausePieces (keyword : String) {e? : Option Expr} {f g : Expr → List Piece}
    (h : ∀ e ∈ e?.toList, d.Spells (f e) (g e)) :
    d.Spells (clausePieces keyword (e?.map f)) (clausePieces keyword (e?.map g)) := by
  cases e? with
  | none => exact .refl []
  | some e => exact .cons _ (h e (by simp))

end Lists

theorem pagePieces (limit? offset? : Option Nat) :
    d.Spells (pagePieces d limit? offset?) (pagePieces .postgres limit? offset?) := by
  cases limit? with
  | some n => exact .refl _
  | none =>
    cases offset? with
    | none => exact .refl _
    | some n =>
      cases h : d.unboundedLimit? with
      | none =>
        simp only [TypedSql.pagePieces, h]
        exact .refl _
      | some s =>
        simp only [TypedSql.pagePieces, h]
        exact .unbounded h n

end Dialect.Spells

/-! ### Layouts of what is written instead -/

section Emulated

variable {d : Dialect}

theorem BinaryOp.isAtomic_emulated (op : BinaryOp) (l r : Expr) :
    (op.emulated d l r).isAtomic = false := by
  cases op with
  | compare op => rfl
  | arithmetic op => rfl
  | pattern m =>
    rw [BinaryOp.emulated, PatternMatch.emulated]
    split <;> rfl

theorem Quantifier.isAtomic_emulated (op : Comparison) (quantifier : Quantifier) (e : Expr)
    (query : Select) : (quantifier.emulated d op e query).isAtomic = false := by
  unfold Quantifier.emulated
  split
  · rfl
  · split <;> rfl

/-- What is written instead stands alone where the expression does. -/
@[simp] theorem Expr.isAtomic_emulated (e : Expr) : (e.emulated d).isAtomic = e.isAtomic := by
  cases e with
  | binary l op r => exact op.isAtomic_emulated _ _
  | quantified e op quantifier query => exact quantifier.isAtomic_emulated op _ _
  | _ => rfl

@[simp] theorem Expr.isJunction_emulated (e : Expr) : (e.emulated d).isJunction = e.isJunction := by
  cases e with
  | binary l op r =>
    cases op with
    | pattern m =>
      simp only [Expr.emulated, BinaryOp.emulated, PatternMatch.emulated]
      split <;> rfl
    | _ => rfl
  | quantified e op quantifier query =>
    simp only [Expr.emulated]
    unfold Quantifier.emulated
    split
    · rfl
    · split <;> rfl
  | _ => rfl

/-- A dialect words the layout of what is written instead of an expression. -/
def Expr.IsWorded (d : Dialect) (e : Expr) : Prop :=
  ∀ qualify, d.Spells (e.pieces d qualify) ((e.emulated d).pieces .postgres qualify)

/-- A dialect words the layout of what is written instead of a select. -/
def Select.IsWorded (d : Dialect) (s : Select) : Prop :=
  d.Spells (s.pieces d) ((s.emulated d).pieces .postgres)

end Emulated

namespace Expr

variable {d : Dialect} {e l r : Expr} {query : Select}

/-- An operand stands in parentheses where what is written instead does. -/
theorem IsWorded.operand (h : e.IsWorded d) (qualify : Bool) :
    d.Spells (Piece.enclosedIf (!e.isAtomic) (e.pieces d qualify))
      (Piece.enclosedIf (!(e.emulated d).isAtomic) ((e.emulated d).pieces .postgres qualify)) := by
  rw [isAtomic_emulated]
  exact (h qualify).enclosedIf _

/-- Lower-cased operands are written as calls. -/
theorem spells_lowered (hl : l.IsWorded d) (hr : r.IsWorded d) (negated qualify : Bool) :
    d.Spells
      (.notice .ilikeEmulated :: .text "LOWER(" :: l.pieces d qualify ++
        .text (if negated then ") NOT LIKE LOWER(" else ") LIKE LOWER(") ::
          r.pieces d qualify ++ [.text ")"])
      ((Expr.binary (.apply .lower (l.emulated d)) (.pattern ⟨false, negated⟩)
        (.apply .lower (r.emulated d))).pieces .postgres qualify) := by
  have hopening : d.Spells [.notice .ilikeEmulated, .text "LOWER("] [.text "LOWER", .text "("] :=
    .alike (by decide)
  have hbetween : d.Spells [.text (if negated then ") NOT LIKE LOWER(" else ") LIKE LOWER(")]
      [.text ")", .text (" " ++ (PatternMatch.mk false negated).sql ++ " "), .text "LOWER",
        .text "("] := by
    refine .alike ?_
    cases negated <;> decide
  have hall := (((hopening.append (hl qualify)).append hbetween).append (hr qualify)).append
    (.refl [.text ")"])
  simpa [pieces, BinaryOp.pieces, PatternMatch.pieces, isAtomic, function?, Piece.enclosedIf,
    callPieces, Dialect.postgres, UnaryFunction.function, SqlFunction.name, BinaryOp.sql] using hall

theorem isWorded_binary (hl : l.IsWorded d) (hr : r.IsWorded d) (op : BinaryOp) :
    (Expr.binary l op r).IsWorded d := by
  intro qualify
  have hplain := fun s => (hl.operand qualify).append (.cons (.text s) (hr.operand qualify))
  cases op with
  | compare op => exact hplain _
  | arithmetic op => exact hplain _
  | pattern m =>
    have hilike : Dialect.postgres.supportsIlike = true := rfl
    rw [emulated, BinaryOp.emulated, PatternMatch.emulated, pieces, BinaryOp.pieces,
      PatternMatch.pieces]
    split
    · exact spells_lowered hl hr m.negated qualify
    · simpa [pieces, BinaryOp.pieces, PatternMatch.pieces, hilike] using hplain _

theorem isWorded_quantified (he : e.IsWorded d) (hquery : query.IsWorded d) (op : Comparison)
    (quantifier : Quantifier) : (Expr.quantified e op quantifier query).IsWorded d := by
  intro qualify
  have hsupports : Dialect.postgres.supportsQuantified = true := rfl
  have hopened := fun s =>
    ((he.operand qualify).append (.refl [.text s])).append (hquery.append (.refl [.text ")"]))
  rw [emulated, pieces]
  unfold Quantifier.emulated Quantifier.opening
  split
  · simpa [pieces, Quantifier.opening, hsupports] using hopened _
  · split
    · simpa [pieces] using hopened _
    · simpa [pieces] using hopened _
    · have hnotice : d.Spells [.notice (.quantifiedUnsupported op quantifier),
          .text (" " ++ op.sql ++ " " ++ quantifier.sql ++ " (")]
          [.text (" " ++ op.sql ++ " " ++ quantifier.sql ++ " (")] := .alike rfl
      have hall := ((he.operand qualify).append hnotice).append (hquery.append (.refl [.text ")"]))
      simpa [pieces, Quantifier.opening, hsupports] using hall

theorem isWorded_junction {parts : List Expr} (h : ∀ c ∈ parts, c.IsWorded d) (kind : Connective) :
    (Expr.junction kind parts).IsWorded d := by
  intro qualify
  simp only [pieces, emulated, emulatedAll_eq, List.isEmpty_map, partPieces_eq, List.map_map]
  split
  · exact .truthValue kind.unit
  · refine .separated _ fun c hc => ?_
    simpa using (h c hc qualify).enclosedIf c.isJunction

theorem isWorded_listMembership {items : List Expr} (he : e.IsWorded d)
    (h : ∀ c ∈ items, c.IsWorded d) (negated : Bool) :
    (Expr.listMembership e items negated).IsWorded d := by
  intro qualify
  simp only [pieces, emulated, emulatedAll_eq, List.isEmpty_map, itemPieces_eq, List.map_map]
  split
  · exact .truthValue negated
  · have hitems := Dialect.Spells.separated ", " fun c hc => h c hc qualify
    exact ((he.operand qualify).append (.cons _ hitems)).append (.refl _)

theorem isWorded_extremum {first second : Expr} {rest : List Expr}
    (h : ∀ c ∈ first :: second :: rest, c.IsWorded d) (f : Extremum) :
    (Expr.extremum f first second rest).IsWorded d := by
  intro qualify
  have harguments := Dialect.Spells.separated ", " fun c hc => h c hc qualify
  simpa [pieces, emulated, emulatedAll_eq, itemPieces_eq, Piece.commaSeparated,
    Function.comp_def] using harguments.callPieces f.function

theorem isWorded_joinedText (h : e.IsWorded d) (separator : String) :
    (Expr.joinedText e separator).IsWorded d := by
  intro qualify
  rw [emulated, pieces]
  refine .callPieces .stringAgg ?_
  split
  · rename_i hseparator
    exact (h qualify).append (.separator hseparator separator)
  · exact (h qualify).append (.refl _)

/-- A dialect words an expression if it words its parts and its subquery. -/
theorem isWorded_of_parts (e : Expr) (parts : ∀ c ∈ e.children, c.IsWorded d)
    (hquery : ∀ s, e.query? = some s → s.IsWorded d) : e.IsWorded d := by
  cases e with
  | column c => exact fun _ => .refl _
  | literal v type? => exact fun _ => .refl _
  | negation e =>
    exact fun qualify => .cons _ ((parts e (by simp [children])).operand qualify)
  | complement e =>
    exact fun qualify => (Dialect.Spells.cons _ (parts e (by simp [children]) qualify)).append
      (.refl _)
  | nullTest e negated =>
    exact fun qualify => ((parts e (by simp [children])).operand qualify).append (.refl _)
  | binary l op r =>
    exact isWorded_binary (parts l (by simp [children])) (parts r (by simp [children])) op
  | junction kind es => exact isWorded_junction parts kind
  | rowCount => exact fun _ => .callPieces _ (.refl _)
  | valueCount distinct e =>
    exact fun qualify => .callPieces _ (.append (.refl _) (parts e (by simp [children]) qualify))
  | apply f e => exact fun qualify => .callPieces _ (parts e (by simp [children]) qualify)
  | orElse e fallback =>
    exact fun qualify => .callPieces _
      (.append (parts e (by simp [children]) qualify)
        (.cons _ (parts fallback (by simp [children]) qualify)))
  | extremum f first second rest => exact isWorded_extremum parts f
  | joinedText e separator => exact isWorded_joinedText (parts e (by simp [children])) separator
  | listMembership e items negated =>
    exact isWorded_listMembership (parts e (by simp [children]))
      (fun c hc => parts c (List.mem_cons_of_mem _ hc)) negated
  | rowMembership e s negated =>
    exact fun qualify =>
      (((parts e (by simp [children])).operand qualify).append (.cons _ (hquery s rfl))).append
        (.refl _)
  | range e low high negated =>
    exact fun qualify =>
      (((parts e (by simp [children])).operand qualify).append
        (.cons _ ((parts low (by simp [children])).operand qualify))).append
        (.cons _ ((parts high (by simp [children])).operand qualify))
  | existence s negated =>
    exact fun _ => (Dialect.Spells.cons _ (hquery s rfl)).append (.refl _)
  | quantified e op quantifier s =>
    exact isWorded_quantified (parts e (by simp [children])) (hquery s rfl) op quantifier

end Expr

/-! ### Layouts of selects -/

namespace Piece

theorem separated_append (s : String) {xs ys : List (List Piece)} (hx : xs ≠ []) (hy : ys ≠ []) :
    separated s (xs ++ ys) = separated s xs ++ .text s :: separated s ys := by
  induction xs with
  | nil => exact absurd rfl hx
  | cons x xs ih =>
    cases xs with
    | nil =>
      obtain ⟨y, ys, rfl⟩ := List.exists_cons_of_ne_nil hy
      rfl
    | cons x' xs =>
      have hrest := ih (List.cons_ne_nil x' xs)
      simp only [List.cons_append, separated, List.append_assoc] at hrest ⊢
      rw [hrest]

/-- Items that stand for several are separated as those are. -/
theorem separated_flatMap {α : Type} (s : String) {items : List α} {f : α → List (List Piece)}
    (h : ∀ a ∈ items, f a ≠ []) :
    separated s (items.flatMap f) = separated s (items.map fun a => separated s (f a)) := by
  induction items with
  | nil => rfl
  | cons a items ih =>
    have hrest := ih fun b hb => h b (List.mem_cons_of_mem a hb)
    cases items with
    | nil => simp [separated]
    | cons b items =>
      have hne : (b :: items).flatMap f ≠ [] := by
        simp [h b (by simp)]
      rw [List.flatMap_cons, separated_append s (h a (by simp)) hne, hrest]
      rfl

end Piece

namespace Select

variable {d : Dialect} {qualify : Bool}

/-- A test for NULL before an expression is worded as a sort key of its own. -/
theorem spells_placed {e : Expr} (h : e.IsWorded d) (qualify : Bool) (direction placed : Direction)
    {test : String}
    (htest : d.Spells [.text test] [.text " IS NULL", .text (" " ++ placed.sql), .text ", "]) :
    d.Spells
      (.notice .nullPlacementEmulated :: Piece.enclosedIf (!e.isAtomic) (e.pieces d qualify) ++
        .text test :: (e.pieces d qualify ++ [.text (" " ++ direction.sql)]))
      (Piece.separated ", "
        ([⟨.nullTest (e.emulated d) false, placed, none⟩, ⟨e.emulated d, direction, none⟩].map
          (SortKey.pieces .postgres qualify))) := by
  have hnotice : d.Spells [.notice .nullPlacementEmulated] [] := .alike rfl
  have hsorted := (h qualify).append (.refl [.text (" " ++ direction.sql)])
  simpa [SortKey.pieces, sortKeyPieces, Piece.separated, Expr.pieces] using
    (hnotice.append ((h.operand qualify).append htest)).append hsorted

/-- A sort key is worded, or the two sort keys are that are written for it. -/
theorem spells_sortKey {k : SortKey} (h : k.expr.IsWorded d) (qualify : Bool) :
    d.Spells (k.pieces d qualify)
      (Piece.separated ", " ((k.emulatedWithin d).map (SortKey.pieces .postgres qualify))) := by
  obtain ⟨e, direction, nulls?⟩ := k
  replace h : e.IsWorded d := h
  have hsupports : Dialect.postgres.supportsNullPlacement = true := rfl
  have hsorted := (h qualify).append (.refl [.text (" " ++ direction.sql)])
  cases nulls? with
  | none => exact hsorted
  | some nulls =>
    simp only [SortKey.emulatedWithin, SortKey.emulated, SortKey.pieces, sortKeyPieces]
    split
    · simpa [SortKey.pieces, sortKeyPieces, hsupports, Piece.separated] using
        hsorted.append (.refl [.text (" " ++ nulls.sql)])
    · refine spells_placed h qualify direction nulls.testDirection (.alike ?_)
      cases nulls <;> decide

theorem spells_order {ks : List SortKey} (h : ∀ k ∈ ks, k.expr.IsWorded d) (qualify : Bool) :
    d.Spells (orderPieces (ks.map (SortKey.pieces d qualify)))
      (orderPieces ((ks.flatMap (SortKey.emulatedWithin d)).map
        (SortKey.pieces .postgres qualify))) := by
  have hne : ∀ k : SortKey, (k.emulatedWithin d).map (SortKey.pieces .postgres qualify) ≠ [] := by
    rintro ⟨e, direction, _ | nulls⟩
    · exact List.cons_ne_nil _ _
    · simp only [SortKey.emulatedWithin, SortKey.emulated]
      split <;> exact List.cons_ne_nil _ _
  rw [List.map_flatMap]
  cases ks with
  | nil => exact .refl []
  | cons k ks =>
    have hkeys : d.Spells (Piece.separated ", " ((k :: ks).map (SortKey.pieces d qualify)))
        (Piece.separated ", " ((k :: ks).flatMap fun k =>
          (k.emulatedWithin d).map (SortKey.pieces .postgres qualify))) := by
      rw [Piece.separated_flatMap _ fun k _ => hne k]
      exact .separated _ fun k hk => spells_sortKey (h k hk) qualify
    rw [orderPieces, orderPieces, if_neg (by simp), if_neg (by simp [hne k])]
    exact .cons _ hkeys

theorem spells_join {j : Join} (h : ∀ e ∈ j.condition?.toList, e.IsWorded d) (qualify : Bool) :
    d.Spells (j.pieces d qualify) ((j.emulated d).pieces .postgres qualify) := by
  cases j with
  | cross t => exact .refl _
  | on kind t condition =>
    exact .append (.refl _) (.cons _ (h condition (by simp [Join.condition?]) qualify))

theorem spells_results {s : Select} (h : ∀ p ∈ s.projections, p.expr.IsWorded d) :
    d.Spells
      (Piece.commaSeparated (resultColumns s.qualifies s.source
        (s.projections.map (Projection.pieces d s.qualifies))))
      (Piece.commaSeparated (resultColumns s.qualifies s.source
        ((s.projections.map (Projection.emulated d)).map
          (Projection.pieces .postgres s.qualifies)))) := by
  simp only [resultColumns, List.isEmpty_map, List.map_map]
  split
  · exact .refl _
  · exact .separated _ fun p hp => (h p hp s.qualifies).append (.refl _)

/-- A dialect words a select if it words the expressions of its clauses. -/
theorem isWorded_of_clauses (s : Select) (clauses : ∀ e ∈ s.clauseExprs, e.IsWorded d) :
    s.IsWorded d := by
  obtain ⟨hprojections, hjoins, hfilter, hhaving, horder⟩ := s.forall_clauseExprs.1 clauses
  have hjoined := Dialect.Spells.flatMap fun j hj => spells_join (hjoins j hj) s.qualifies
  have hwhere := Dialect.Spells.clausePieces " WHERE " fun e he => hfilter e he s.qualifies
  have hhaving' := Dialect.Spells.clausePieces " HAVING " fun e he => hhaving e he s.qualifies
  rw [IsWorded, pieces_eq, pieces_eq, qualifies_emulated, emulated_eq]
  simp only [List.flatMap_map, Option.map_map]
  refine .append (.append (.append (.append (.append (.append (.append (.append (.refl _)
    (spells_results hprojections)) (.refl _)) hjoined) hwhere) (.refl _)) hhaving')
    (spells_order horder s.qualifies)) (.pagePieces s.limit? s.offset?)

end Select

theorem Expr.isWorded (d : Dialect) (e : Expr) : e.IsWorded d :=
  Expr.induction (P := Expr.IsWorded d) (Q := Select.IsWorded d) Expr.isWorded_of_parts
    Select.isWorded_of_clauses e

/-- A dialect is sent the form of the expression that is written instead. -/
theorem Expr.sends_sent (d : Dialect) (e : Expr) (qualify : Bool) :
    d.Sends e qualify (e.sent d qualify) :=
  ⟨(e.emulated d).pieces .postgres qualify, e.isWorded d qualify,
    (e.emulated d).readExpr_sql qualify⟩

/--
**Emulations preserve meaning.** Any two dialects are sent, for every expression, forms with the
same value in all rows, under every interpretation of columns, comparisons, functions and
subqueries. It is the value of the expression itself, with every construct as it is: a match that
ignores case, a comparison with any or all rows of a subquery, a placement of NULL, membership in a
list without items and a chain without conditions, at any depth.
-/
theorem eval_sent_dialects (e : Expr) (qualify : Bool) (d d' : Dialect) :
    d.Sends e qualify (e.sent d qualify) ∧ d'.Sends e qualify (e.sent d' qualify) ∧
      ∀ {ρ : Type} (I : Interpretation ρ),
        (e.sent d qualify).eval I = (e.sent d' qualify).eval I ∧
          (e.sent d qualify).eval I = (e.form qualify).eval I := by
  refine ⟨e.sends_sent d qualify, e.sends_sent d' qualify, fun I => ⟨?_, e.isMeant I d qualify⟩⟩
  rw [e.isMeant I d qualify, e.isMeant I d' qualify]

/-- SQLite is sent `NOT IN` for `!= ALL`, and MySQL `LIKE` of lower-cased operands for `ILIKE`. -/
example (l r : Expr) (query : Select) (qualify : Bool) :
    (Expr.quantified l .notEq .all query).sent .sqlite qualify =
        .rowMembership (l.sent .sqlite qualify) (query.sent .sqlite) true ∧
      (Expr.binary l (.pattern ⟨true, false⟩) r).sent .mysql qualify =
        .binary (.call .lower false [l.sent .mysql qualify]) (.pattern ⟨false, false⟩)
          (.call .lower false [r.sent .mysql qualify]) :=
  ⟨rfl, rfl⟩

end TypedSql
