import TypedSql.Proofs.Binding
import TypedSql.Proofs.Runs
import TypedSql.Proofs.Vocabulary

/-!
# Complete inserts, updates and deletes

A complete insert, update or delete holds what its steps have given it: `reflects_of_runs` puts
together what holds of the runs of each.

A delete is the one that does harm where a condition is missing. It joins all conditions that were
attached and has none exactly if all its rows were asked for (`Delete.Reflects`), and this is
followed to its text: for every dialect, `WHERE` comes after the table exactly if the delete has a
condition, and for a plain dialect it is a word of the text only then.
-/

namespace TypedSql

/-! ### Deletes -/

namespace Delete

/-- A step of a delete is offered in its state and succeeds. -/
def Succeeds (x : Delete) (st : Step) (x' : Delete) : Prop :=
  x.step? st = some (.ok x')

/-- The condition that a step attaches. -/
def Step.condition? : Step → Option Expr
  | .filterBy e => some e
  | .allRows | .returningColumns _ => none

/-- A delete joins the conditions that steps have attached, or removes all rows because a step has
asked for them. -/
structure Reflects (t : Table) (steps : List Step) (x : Delete) : Prop where
  table_eq : x.table = t
  complete_iff : x.IsComplete ↔ .allRows ∈ steps ∨ ∃ e, .filterBy e ∈ steps
  condition_iff : x.IsComplete → (x.condition? = none ↔ .allRows ∈ steps)
  not_filterBy : .allRows ∈ steps → ∀ e, .filterBy e ∉ steps
  conjuncts_eq : conjuncts x.condition? = steps.flatMap fun st => conjuncts st.condition?
  holds_iff : ∀ {ρ : Type} (I : Interpretation ρ) (y : ρ),
    (∀ e ∈ x.condition?, e.Holds I y) ↔ ∀ e, .filterBy e ∈ steps → e.Holds I y

section Runs

variable {t : Table} {x x' : Delete} {st : Step} {steps : List Step}

/-- **What a step makes of a delete.** After all rows were asked for, no condition is attached; and
they are asked for only where there is none. -/
theorem Succeeds.cases (h : x.Succeeds st x') :
    (∃ e, st = .filterBy e ∧ x.extent ≠ .allRows ∧
        x' = { x with extent := .matching (Expr.attached x.condition? e) }) ∨
      (st = .allRows ∧ x.extent = .undecided ∧ x' = { x with extent := .allRows }) ∨
      ∃ columns, st = .returningColumns columns ∧ x.IsComplete ∧
        x' = { x with returning := columns } := by
  cases st with
  | filterBy e =>
    obtain ⟨-, -, condition, hattach, rfl⟩ := filterBy_eq_ok (step?_filterBy_eq_ok h)
    refine .inl ⟨e, rfl, fun hall => ?_, by rw [Expr.attach_eq_attached hattach]⟩
    simp [Succeeds, step?, hall] at h
  | allRows =>
    refine .inr (.inl ⟨rfl, ?_, step?_allRows_eq_ok h⟩)
    obtain ⟨table, extent, returning⟩ := x
    cases extent with
    | undecided => rfl
    | matching condition => cases h
    | allRows => cases h
  | returningColumns columns =>
    refine .inr (.inr ⟨columns, rfl, ?_, (step?_returningColumns_eq_ok h).2⟩)
    obtain ⟨table, extent, returning⟩ := x
    cases extent with
    | undecided => cases h
    | matching condition => rfl
    | allRows => rfl

/-- A delete that says which rows it removes has a condition unless it removes all. -/
theorem condition?_eq_none_iff (h : x.IsComplete) : x.condition? = none ↔ x.extent = .allRows := by
  obtain ⟨table, extent, returning⟩ := x
  cases extent with
  | undecided => cases h
  | matching condition => simp [condition?]
  | allRows => simp [condition?]

theorem table_of_step (h : x.Succeeds st x') : x'.table = x.table := by
  obtain ⟨e, -, -, rfl⟩ | ⟨-, -, rfl⟩ | ⟨columns, -, -, rfl⟩ := h.cases <;> rfl

/-- A delete joins a condition that is attached to those that it has. -/
theorem conjuncts_of_step (h : x.Succeeds st x') :
    conjuncts x'.condition? = conjuncts x.condition? ++ conjuncts st.condition? := by
  obtain ⟨e, rfl, -, rfl⟩ | ⟨rfl, hundecided, rfl⟩ | ⟨columns, rfl, -, rfl⟩ := h.cases
  · have hattached := Expr.conjuncts_attached x.condition? e
    simpa [conjuncts, Step.condition?, condition?] using hattached
  · simp [condition?, hundecided, conjuncts, Step.condition?]
  · exact (List.append_nil _).symm

/-- A delete is complete as soon as it was given a condition or asked for all rows. -/
theorem isComplete_iff_of_run (h : Run Succeeds x steps x') :
    x'.IsComplete ↔ x.IsComplete ∨ ∃ st ∈ steps, st = .allRows ∨ ∃ e, st = .filterBy e := by
  refine h.reached_iff fun h => ?_
  obtain ⟨e, rfl, -, rfl⟩ | ⟨rfl, -, rfl⟩ | ⟨columns, rfl, -, rfl⟩ := h.cases <;>
    simp [IsComplete, isDecided]

theorem extent_iff_of_run (h : Run Succeeds x steps x') :
    x'.extent = .allRows ↔ x.extent = .allRows ∨ ∃ st ∈ steps, st = .allRows := by
  refine h.reached_iff (P := fun x => x.extent = .allRows) fun h => ?_
  obtain ⟨e, rfl, hne, rfl⟩ | ⟨rfl, -, rfl⟩ | ⟨columns, rfl, -, rfl⟩ := h.cases
  · simp [hne]
  · simp
  · simp

/-- Once all rows were asked for, no condition follows. -/
theorem not_filterBy_of_run (h : Run Succeeds x steps x') (hx : x.extent = .allRows) (e : Expr) :
    .filterBy e ∉ steps := by
  induction h with
  | nil => exact List.not_mem_nil
  | cons h _ ih =>
    obtain ⟨f, rfl, hne, rfl⟩ | ⟨rfl, hundecided, rfl⟩ | ⟨columns, rfl, -, rfl⟩ := h.cases
    · exact absurd hx hne
    · cases hx.symm.trans hundecided
    · simpa using ih hx

/-- Once there is a condition, all rows are not asked for. -/
theorem not_allRows_of_run (h : Run Succeeds x steps x') {condition : Expr}
    (hx : x.extent = .matching condition) : .allRows ∉ steps := by
  induction h generalizing condition with
  | nil => exact List.not_mem_nil
  | cons h _ ih =>
    obtain ⟨f, rfl, -, rfl⟩ | ⟨rfl, hundecided, rfl⟩ | ⟨columns, rfl, -, rfl⟩ := h.cases
    · simpa using ih rfl
    · cases hx.symm.trans hundecided
    · simpa using ih hx

/-- All rows are asked for at first or never. -/
theorem not_filterBy_of_allRows (h : Run Succeeds (ofTable t) steps x) (hall : .allRows ∈ steps)
    (e : Expr) : .filterBy e ∉ steps := by
  cases h with
  | nil => cases hall
  | cons h hrest =>
    -- The first step decides; columns cannot be returned before it.
    obtain ⟨f, rfl, -, rfl⟩ | ⟨rfl, -, rfl⟩ | ⟨columns, rfl, hcomplete, rfl⟩ := h.cases
    · rcases List.mem_cons.1 hall with hall | hall
      · cases hall
      · exact absurd hall (not_allRows_of_run hrest rfl)
    · simpa using not_filterBy_of_run hrest rfl e
    · cases hcomplete

/-- **A delete has the conditions of its steps**, and none exactly if all rows were asked for. -/
theorem reflects_of_run (h : Run Succeeds (ofTable t) steps x) : x.Reflects t steps := by
  have hconjuncts : conjuncts x.condition? = steps.flatMap fun st => conjuncts st.condition? :=
    h.view_eq (fun x => conjuncts x.condition?) conjuncts_of_step
  refine ⟨?_, ?_, fun hcomplete => ?_, not_filterBy_of_allRows h, hconjuncts, fun I y => ?_⟩
  · exact h.invariant (P := fun x => x.table = t) (fun hx h => (table_of_step h).trans hx) rfl
  · rw [isComplete_iff_of_run h]
    refine ⟨fun h => h.elim nofun ?_, ?_⟩
    · rintro ⟨_, hst, rfl | ⟨e, rfl⟩⟩
      · exact .inl hst
      · exact .inr ⟨e, hst⟩
    · rintro (hall | ⟨e, he⟩)
      · exact .inr ⟨_, hall, .inl rfl⟩
      · exact .inr ⟨_, he, .inr ⟨e, rfl⟩⟩
  · rw [condition?_eq_none_iff hcomplete, extent_iff_of_run h]
    simp [ofTable]
  · rw [holds_iff_of_conjuncts_eq I y hconjuncts]
    refine ⟨fun h e he => h _ he e rfl, fun h st hst e he => ?_⟩
    cases st with
    | filterBy _ => exact Option.some.inj he ▸ h _ hst
    | allRows => cases he
    | returningColumns _ => cases he

end Runs

end Delete

/-! ### The text of a delete -/

namespace Delete

section Text

variable {d : Dialect} {x : Delete}

/-- The fixed texts of a delete that has no condition. -/
def bareTexts : List String :=
  ["DELETE FROM ", ".", " AS ", " RETURNING ", ", "]

theorem emitted_bareTexts (h : x.condition? = none) :
    Piece.Emitted d (· ∈ bareTexts) (x.pieces d) := by
  have hname : Piece.Emitted d (· ∈ bareTexts) x.table.namePieces := by
    unfold Table.namePieces
    split
    · exact (Piece.Emitted.identifier _).append (.text_cons (by decide) (.identifier _))
    · exact .identifier _
  have hsource : Piece.Emitted d (· ∈ bareTexts) x.table.sourcePieces := by
    refine hname.append ?_
    split
    · exact .text_cons (by decide) (.identifier _)
    · exact .nil
  have hcolumns : Piece.Emitted d (· ∈ bareTexts)
      (Piece.commaSeparated (x.returning.map (Column.pieces false))) :=
    .separated (by decide) (List.forall_mem_map.2 fun c _ => .identifier c.name)
  have hreturning : Piece.Emitted d (· ∈ bareTexts) (returningPieces d x.returning) := by
    unfold returningPieces
    split
    · exact .nil
    · split
      · exact .text_cons (by decide) hcolumns
      · exact .notice_cons _ (.text_cons (by decide) hcolumns)
  rw [pieces, h]
  exact ((Piece.Emitted.text_cons (by decide) hsource).append .nil).append hreturning

/-- **The word `WHERE` is in the text of a delete exactly if the delete has a condition.** -/
theorem where_mem_lex_iff (hd : d.IsPlain) :
    .word "WHERE" ∈ lex d.identifierQuote (Piece.sql d (x.pieces d)) ↔ x.condition? ≠ none := by
  have htexts : ∀ s ∈ " WHERE " :: bareTexts, lex d.identifierQuote s = lex '"' s := fun s hs =>
    lex_eq_of_isPlainText hd.quote Dialect.isPlain_postgres.quote
      ((by decide : ∀ s ∈ " WHERE " :: bareTexts, IsPlainText s) s hs)
  rw [Piece.lex_sql hd (x.tidy_pieces hd), Piece.word_mem_tokens_iff]
  refine ⟨?_, fun h => ⟨" WHERE ", ?_, ?_⟩⟩
  · rintro ⟨s, hs, hword⟩ hnone
    have hbare : s ∈ bareTexts := (emitted_bareTexts hnone).1 s hs
    rw [htexts s (List.mem_cons_of_mem _ hbare)] at hword
    exact (by decide : ∀ s ∈ bareTexts, .word "WHERE" ∉ lex '"' s) s hbare hword
  · obtain ⟨e, he⟩ := Option.ne_none_iff_exists'.1 h
    simp [pieces, he, conditionPieces, clausePieces]
  · rw [htexts _ (.head _)]
    decide

/-- The text of a delete after its table. -/
def textAfterTable (d : Dialect) (x : Delete) : String :=
  Piece.sql d (clausePieces " WHERE " (conditionPieces d false x.condition?) ++
    returningPieces d x.returning)

theorem sql_pieces (d : Dialect) (x : Delete) :
    Piece.sql d (x.pieces d) =
      "DELETE FROM " ++ Piece.sql d x.table.sourcePieces ++ x.textAfterTable d := by
  have hparameters : Piece.parameters x.table.sourcePieces = [] := x.table.parameters_sourcePieces
  rw [pieces, List.append_assoc, textAfterTable, Piece.sql, Piece.texts_append]
  simp [Piece.sql, Piece.texts, Piece.parameters_text_cons, hparameters, String.append_assoc]

/-- The text of returned columns is empty or starts with its keyword. -/
theorem sql_returningPieces (d : Dialect) (columns : List Column) :
    Piece.sql d (returningPieces d columns) = "" ∨
      ∃ tail, Piece.sql d (returningPieces d columns) = " RETURNING " ++ tail := by
  unfold returningPieces
  split
  · exact .inl rfl
  · refine .inr ⟨Piece.sql d (Piece.commaSeparated (columns.map (Column.pieces false))), ?_⟩
    split <;> simp [Piece.sql, Piece.texts]

/-- After its table, the text of a delete goes on with `WHERE` exactly if the delete has a
condition. -/
theorem where_follows_iff :
    (∃ tail, x.textAfterTable d = " WHERE " ++ tail) ↔ x.condition? ≠ none := by
  cases h : x.condition? with
  | some e => simp [textAfterTable, h, conditionPieces, clausePieces, Piece.sql, Piece.texts]
  | none =>
    have htext : x.textAfterTable d = Piece.sql d (returningPieces d x.returning) := by
      simp [textAfterTable, h, conditionPieces, clausePieces]
    refine iff_of_false ?_ (by simp)
    rintro ⟨tail, hwhere⟩
    rw [htext] at hwhere
    obtain hempty | ⟨tail', hreturning⟩ := sql_returningPieces d x.returning
    · rw [hempty] at hwhere
      simpa using congrArg String.toList hwhere
    · rw [hreturning] at hwhere
      simpa using congrArg String.toList hwhere

end Text

end Delete

/-- Whether a complete delete has a condition can be read off its text, for every dialect. -/
theorem Delete.Reflects.where_iff {t : Table} {steps : List Delete.Step} {x : Delete}
    (h : x.Reflects t steps) (complete : x.IsComplete) (d : Dialect) :
    ((∃ tail, ((Statement.delete x complete).compile d).sql =
        "DELETE FROM " ++ Piece.sql d t.sourcePieces ++ " WHERE " ++ tail) ↔
      .allRows ∉ steps) ∧
      (d.IsPlain →
        (.word "WHERE" ∈ lex d.identifierQuote ((Statement.delete x complete).compile d).sql ↔
          .allRows ∉ steps)) := by
  have hsql : ((Statement.delete x complete).compile d).sql =
      "DELETE FROM " ++ Piece.sql d t.sourcePieces ++ x.textAfterTable d :=
    h.table_eq ▸ x.sql_pieces d
  have hcondition : x.condition? ≠ none ↔ .allRows ∉ steps := not_congr (h.condition_iff complete)
  refine ⟨?_, fun hd => (x.where_mem_lex_iff hd).trans hcondition⟩
  rw [hsql, ← hcondition, ← x.where_follows_iff (d := d)]
  refine exists_congr fun tail => ?_
  have hassoc : "DELETE FROM " ++ Piece.sql d t.sourcePieces ++ " WHERE " ++ tail =
      "DELETE FROM " ++ Piece.sql d t.sourcePieces ++ (" WHERE " ++ tail) := String.append_assoc
  rw [hassoc, String.append_right_inj]

/-- **Inserts, updates and deletes hold what their steps have given them.** Whatever steps have
succeeded, in whatever order: an insert has different columns of its table and rows as wide as
these, and it has the rows that were added, at least one as soon as it is complete. An update
assigns different columns of its table, each the value that was set last; it is complete as soon as
one was set, and its condition holds in a row exactly if all conditions hold that were attached. A
complete delete has the conditions that were attached, and none exactly if all rows were asked for,
which is to be seen from its text. No later step takes away a row, an assigned column or a
condition. -/
theorem reflects_of_runs (t : Table) :
    (∀ (before after : List Insert.Step) (i₀ i : Insert),
      Run Insert.Succeeds (.ofTable t) before i₀ → Run Insert.Succeeds i₀ after i →
        i.IsRegular t ∧ i.Reflects t (before ++ after) ∧ i₀.Extends i) ∧
      (∀ (before after : List Update.Step) (u₀ u : Update),
        Run Update.Succeeds (.ofTable t) before u₀ → Run Update.Succeeds u₀ after u →
          u.IsRegular t ∧ u.Reflects t (before ++ after) ∧ u₀.Extends u) ∧
      (∀ (before after : List Delete.Step) (x₀ x : Delete),
        Run Delete.Succeeds (.ofTable t) before x₀ → Run Delete.Succeeds x₀ after x →
          x.Reflects t (before ++ after) ∧ conjuncts x₀.condition? <+: conjuncts x.condition? ∧
            ∀ (complete : x.IsComplete) (d : Dialect),
              ((∃ tail, ((Statement.delete x complete).compile d).sql =
                  "DELETE FROM " ++ Piece.sql d t.sourcePieces ++ " WHERE " ++ tail) ↔
                .allRows ∉ before ++ after) ∧
                (d.IsPlain → (.word "WHERE" ∈
                    lex d.identifierQuote ((Statement.delete x complete).compile d).sql ↔
                  .allRows ∉ before ++ after))) ∧
      (∀ (rows : List Row) (i : Insert), Insert.ofRows t rows = .ok i ↔
        rows ≠ [] ∧ Run Insert.Succeeds (.ofTable t) (rows.map .addRow) i) ∧
      (∀ (assignments : List (Column × Operand)) (u : Update),
        Update.ofAssignments t assignments = .ok u ↔ assignments ≠ [] ∧
          Run Update.Succeeds (.ofTable t) (assignments.map fun a => .set a.1 a.2) u) ∧
      ∀ tables : Set Table, Consistent tables →
        (∀ i : Insert, i.Built tables → ∀ c ∈ i.columns, c ∈ i.table.columns) ∧
          ∀ u : Update, u.Built tables → ∀ a ∈ u.assignments, a.1 ∈ u.table.columns := by
  refine ⟨fun before after i₀ i h h' => ?_, fun before after u₀ u h h' => ?_,
    fun before after x₀ x h h' => ?_, fun _ _ => Insert.ofRows_eq_ok_iff,
    fun _ _ => Update.ofAssignments_eq_ok_iff, fun tables hconsistent => ⟨?_, ?_⟩⟩
  · obtain ⟨hregular, hextends⟩ := ((Insert.isRegular_ofTable t).run h).1.run h'
    exact ⟨hregular, Insert.reflects_of_run (h.append h'), hextends⟩
  · obtain ⟨hregular, hextends⟩ := ((Update.isRegular_ofTable t).run h).1.run h'
    exact ⟨hregular, Update.reflects_of_run (h.append h'), hextends⟩
  · have hreflects := Delete.reflects_of_run (h.append h')
    have hconjuncts := h'.view_eq (fun x => conjuncts x.condition?) Delete.conjuncts_of_step
    exact ⟨hreflects, hconjuncts ▸ List.prefix_append _ _, hreflects.where_iff⟩
  · intro i hi c hc
    obtain ⟨hof, htable⟩ := hi.isScoped.columns c hc
    exact hconsistent.mem_columns hof hi.isScoped.table htable.symm
  · intro u hu a ha
    obtain ⟨hof, htable⟩ := (hu.isScoped.assignments a ha).1
    exact hconsistent.mem_columns hof hu.isScoped.table htable.symm

/-- A price as it is put into a statement. -/
def pricedAt (n : Int64) : Expr :=
  .literal (.int n) (some .integer)

/-- The row of a price. -/
def priceRow (n : Int64) : Row :=
  Row.empty.set price (.value (.int n))

/-- The goods of some prices. -/
def newGoods (rows : List (List Expr)) : Insert :=
  ⟨goods, [price], rows, []⟩

/-- A price for some goods. -/
def newPrice (n : Int64) (filter? : Option Expr) : Update :=
  ⟨goods, [(price, pricedAt n)], filter?, []⟩

/-- The goods that are no longer sold. -/
def oldGoods (condition : Expr) : Delete :=
  ⟨goods, .matching condition, []⟩

/-- The prices between two others. -/
def middlePrice : Expr :=
  .junction .and [priceAgainst .gt 5, priceAgainst .lt 9]

theorem reflects_of_runs_goods :
    Run Insert.Succeeds (.ofTable goods) [.addRow (priceRow 5)] (newGoods [[pricedAt 5]]) ∧
      Run Insert.Succeeds (newGoods [[pricedAt 5]]) [.addRow (priceRow 7)]
        (newGoods [[pricedAt 5], [pricedAt 7]]) ∧
      (newGoods [[pricedAt 5], [pricedAt 7]]).IsRegular goods ∧
      Run Update.Succeeds (.ofTable goods) [.set price (.value (.int 5))] (newPrice 5 none) ∧
      Run Update.Succeeds (newPrice 5 none)
        [.filterBy (priceAgainst .lt 9), .set price (.value (.int 7))]
        (newPrice 7 (some (priceAgainst .lt 9))) ∧
      (newPrice 5 none).Extends (newPrice 7 (some (priceAgainst .lt 9))) ∧
      Run Delete.Succeeds (.ofTable goods) [.filterBy (priceAgainst .gt 5)]
        (oldGoods (priceAgainst .gt 5)) ∧
      Run Delete.Succeeds (oldGoods (priceAgainst .gt 5)) [.filterBy (priceAgainst .lt 9)]
        (oldGoods middlePrice) ∧
      (∀ complete : (oldGoods middlePrice).IsComplete, Token.word "WHERE" ∈
        lex '"' ((Statement.delete (oldGoods middlePrice) complete).compile .postgres).sql) ∧
      Consistent {goods, offers} ∧ (newGoods [[pricedAt 5]]).Built {goods, offers} ∧
      (newPrice 5 none).Built {goods, offers} ∧ price ∈ goods.columns := by
  have hprice : price.IsOf {goods, offers} := ⟨goods, .inl rfl, .head _⟩
  have hinsert : (Insert.ofTable goods).Succeeds (.addRow (priceRow 5)) (newGoods [[pricedAt 5]]) :=
    rfl
  have hset : (Update.ofTable goods).Succeeds (.set price (.value (.int 5))) (newPrice 5 none) :=
    rfl
  have hinserts : Run Insert.Succeeds (newGoods [[pricedAt 5]]) [.addRow (priceRow 7)]
      (newGoods [[pricedAt 5], [pricedAt 7]]) := .cons rfl (.nil _)
  have hfilter : (newPrice 5 none).Succeeds (.filterBy (priceAgainst .lt 9))
      (newPrice 5 (some (priceAgainst .lt 9))) := rfl
  have hsets : Run Update.Succeeds (newPrice 5 none)
      [.filterBy (priceAgainst .lt 9), .set price (.value (.int 7))]
      (newPrice 7 (some (priceAgainst .lt 9))) := .cons hfilter (.cons rfl (.nil _))
  have hdelete : Run Delete.Succeeds (.ofTable goods) [.filterBy (priceAgainst .gt 5)]
      (oldGoods (priceAgainst .gt 5)) := .cons rfl (.nil _)
  have hdeletes : Run Delete.Succeeds (oldGoods (priceAgainst .gt 5))
      [.filterBy (priceAgainst .lt 9)] (oldGoods middlePrice) := .cons rfl (.nil _)
  have hbuiltInsert : (newGoods [[pricedAt 5]]).Built {goods, offers} :=
    .addRow (.ofTable (.inl rfl)) (List.forall_mem_singleton.2 hprice)
      (List.forall_mem_singleton.2 (by rintro _ ⟨⟩)) hinsert
  have hbuiltUpdate : (newPrice 5 none).Built {goods, offers} :=
    .set (.ofTable (.inl rfl)) hprice (by rintro _ ⟨⟩) hset
  obtain ⟨hinsertRuns, hupdateRuns, hdeleteRuns, -, -, hdeclared⟩ := reflects_of_runs goods
  have hrun : Run Insert.Succeeds (.ofTable goods) [.addRow (priceRow 5)]
      (newGoods [[pricedAt 5]]) := .cons hinsert (.nil _)
  have hrunSet : Run Update.Succeeds (.ofTable goods) [.set price (.value (.int 5))]
      (newPrice 5 none) := .cons hset (.nil _)
  have hwhere := (hdeleteRuns _ _ _ _ hdelete hdeletes).2.2
  exact ⟨hrun, hinserts, (hinsertRuns _ _ _ _ hrun hinserts).1, hrunSet, hsets,
    (hupdateRuns _ _ _ _ hrunSet hsets).2.2, hdelete, hdeletes,
    fun complete => ((hwhere complete .postgres).2 Dialect.isPlain_postgres).2 (by simp),
    consistent_goods_offers, hbuiltInsert, hbuiltUpdate,
    (hdeclared _ consistent_goods_offers).1 _ hbuiltInsert price (.head _)⟩

end TypedSql
