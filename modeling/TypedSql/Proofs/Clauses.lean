import TypedSql.Proofs.Readers
import TypedSql.Proofs.Reading

/-!
# Clauses are read back

The text of a select for PostgreSQL is read as that select if the expressions of its clauses are:
`Select.readsWithin_select`. A clause stops where a later one starts, so that the clauses are put
together from the last one to the first. The names, tables and entries that stand in the clauses
come before.
-/

namespace TypedSql

open Reader
open Piece (phrase)

variable {d : Deeper} {qualify : Bool}

/-! ### Names and tables -/

theorem Column.readsAs_dottedName (qualify : Bool) (c : Column) :
    ReadsAs dottedName 8 (phrase (c.pieces qualify)) (c.reading qualify) := by
  intro rest hrest
  have hnone : expect [.mark '.'] rest = none := hrest.expect_eq_none (by decide) []
  cases qualify <;>
    simp [Column.pieces, Column.reading, dottedName, identifier, optionally, after, expect,
      hnone]

theorem Column.readsAs_primary (qualify : Bool) (c : Column) :
    ReadsAs (primary d) 8 (phrase (c.pieces qualify)) (c.readingExpr qualify) := by
  have hname := (c.readsAs_dottedName qualify).map fun c => SqlExpr.column c.1 c.2
  cases qualify <;> exact hname

theorem Table.readsAs_tableSource (t : Table) :
    ReadsAs tableSource 2 (phrase t.sourcePieces) t.ref := by
  intro rest hrest
  have hdotNone : expect [.mark '.'] rest = none := hrest.expect_eq_none (by decide) []
  have hasNone : expect [.word "AS"] rest = none := hrest.expect_eq_none (by decide) []
  obtain ⟨⟨schema?, name, alias?⟩, -⟩ := t
  cases schema? <;> cases alias? <;>
    simp [Table.sourcePieces, Table.namePieces, tableSource, dottedName, identifier,
      optionally, after, expect, hdotNone, hasNone]

/-! ### Entries of clauses -/

/-- An expression is read by a reader, up to what binds as loosely as `OR`. -/
def Expr.ReadsBy (p : Reader SqlExpr) (qualify : Bool) (e : Expr) : Prop :=
  ReadsAs p 3 (phrase (e.pieces .postgres qualify)) (e.reading qualify)

theorem Projection.readsAs_item {p : Projection} (h : p.expr.ReadsBy d.expr qualify) :
    ReadsAs (item d) 2 (phrase (p.pieces .postgres qualify)) (p.reading qualify) := by
  intro rest hrest
  have hnone : expect [.word "AS"] rest = none := hrest.expect_eq_none (by decide) []
  obtain ⟨e, alias?⟩ := p
  cases alias? with
  | none =>
    have hread := h rest (hrest.mono (by decide))
    simp [Projection.pieces, Projection.reading, item, hread, optionally, after, hnone]
  | some name =>
    have hread := h (.word "AS" :: .identifier name :: rest) (stops_cons.2 (by decide))
    simp [Projection.pieces, Projection.reading, item, hread, optionally, after, expect,
      identifier]

theorem Column.readsAs_item {c : Column} (h : (Expr.column c).ReadsBy d.expr qualify) :
    ReadsAs (item d) 2 (phrase (c.pieces qualify)) ⟨c.readingExpr qualify, none⟩ := by
  intro rest hrest
  have hread := (Projection.readsAs_item (p := ⟨.column c, none⟩) h) rest hrest
  simpa [Projection.pieces, Projection.reading, Expr.pieces, Expr.reading] using hread

theorem SortKey.phrase_pieces (k : SortKey) :
    phrase (k.pieces .postgres qualify) =
      phrase (k.expr.pieces .postgres qualify) ++ .word k.direction.sql ::
        match k.nulls? with
        | some nulls => .word "NULLS" :: placementKeyword nulls
        | none => [] := by
  obtain ⟨e, direction, nulls?⟩ := k
  have hdirection : fixedTokens (" " ++ direction.sql) = [.word direction.sql] := by
    cases direction <;> decide
  have hnulls : ∀ nulls : NullPlacement,
      fixedTokens (" " ++ nulls.sql) = .word "NULLS" :: placementKeyword nulls := by
    intro nulls
    cases nulls <;> decide
  have hplacement : Dialect.postgres.supportsNullPlacement = true := rfl
  cases nulls? <;> simp [SortKey.pieces, sortKeyPieces, hplacement, hdirection, hnulls]

theorem SortKey.readsAs_sortKey {k : SortKey} (h : k.expr.ReadsBy d.expr qualify) :
    ReadsAs (sortKey d) 2 (phrase (k.pieces .postgres qualify)) (k.reading qualify) := by
  intro rest hrest
  rw [SortKey.phrase_pieces]
  obtain ⟨e, direction, nulls?⟩ := k
  have hnone : expect [.word "NULLS"] rest = none := hrest.expect_eq_none (by decide) []
  -- The direction is always written, so the key ends before it.
  have hbinding : (Token.word direction.sql).binding < 3 := by
    cases direction <;> decide
  have hexpr : ∀ us, d.expr (phrase (e.pieces .postgres qualify) ++ .word direction.sql :: us) =
      some (e.reading qualify, .word direction.sql :: us) :=
    fun us => h _ (stops_cons.2 hbinding)
  have hkeyword : ∀ us : List (Token Value),
      choice (fun d : Direction => [Token.word d.sql]) [.ascending, .descending]
        (.word direction.sql :: us) = some (direction, us) := by
    intro us
    cases direction <;> simp [choice, expect, Direction.sql]
  cases nulls? with
  | none => simp [SortKey.reading, sortKey, hexpr, hkeyword, optionally, after, hnone]
  | some nulls =>
    have hchoice : choice placementKeyword [.first, .last] (placementKeyword nulls ++ rest) =
        some (nulls, rest) := by
      cases nulls <;> simp [choice, expect, placementKeyword]
    simp [SortKey.reading, sortKey, hexpr, hkeyword, optionally, after, expect, hchoice]

theorem Join.reads_join {j : Join} (h : ∀ e ∈ j.condition?.toList, e.ReadsBy d.expr qualify)
    {rest : List (Token Value)} (hrest : Stops 2 rest) :
    join d (phrase (j.pieces .postgres qualify) ++ rest) = some (j.reading qualify, rest) := by
  have hon : fixedTokens " ON " = [.word "ON"] := by decide
  cases j with
  | on kind t condition =>
    have hkind : fixedTokens (" " ++ kind.sql ++ " ") = joinKeyword kind := by
      cases kind <;> decide
    have hcross : ∀ us, expect [.word "CROSS", .word "JOIN"] (joinKeyword kind ++ us) = none := by
      intro us
      cases kind <;> simp [joinKeyword, expect]
    have hchoice : ∀ us,
        choice joinKeyword [.inner, .left, .right, .full] (joinKeyword kind ++ us) =
          some (kind, us) := by
      intro us
      cases kind <;> simp [choice, joinKeyword, expect]
    have htable := fun us => t.readsAs_tableSource (.word "ON" :: us) (stops_cons.2 (by decide))
    have hcondition := h condition (by simp [Join.condition?]) rest (hrest.mono (by decide))
    simp [Join.pieces, Join.reading, hkind, hon, join, hcross, hchoice, htable, after, expect,
      Reader.map, hcondition]
  | cross t =>
    have hcross : fixedTokens (" " ++ crossJoinSql ++ " ") = [.word "CROSS", .word "JOIN"] := by
      decide
    simp [Join.pieces, Join.reading, hcross, join, expect, Reader.map,
      t.readsAs_tableSource rest hrest]

/-! ### Lists -/

section Lists

variable {ι α : Type} {p : Reader α} {separator : String} {t : Token Value}

/-- A list is read that has at least one item and whose separator is one token. -/
theorem readsAs_separated (ht : fixedTokens separator = [t]) {items : List ι} (hne : items ≠ [])
    {layout : ι → List Piece} {g : ι → α}
    (h : ∀ i ∈ items, ReadsAs p (t.binding + 1) (phrase (layout i)) (g i)) :
    ReadsAs (separated t p) t.binding (phrase (Piece.separated separator (items.map layout)))
      (items.map g) := by
  obtain ⟨i, items, rfl⟩ := List.exists_cons_of_ne_nil hne
  rw [List.map_cons, Piece.phrase_separated ht, List.flatMap_map]
  exact ReadsAs.separated h

theorem readsAs_commaSeparated {items : List ι} (hne : items ≠ []) {layout : ι → List Piece}
    {g : ι → α} (h : ∀ i ∈ items, ReadsAs p 2 (phrase (layout i)) (g i)) :
    ReadsAs (separated (.mark ',') p) 1 (phrase (Piece.commaSeparated (items.map layout)))
      (items.map g) :=
  readsAs_separated (t := .mark ',') (by decide) hne h

/-- An item has no more tokens than a list with it. -/
theorem length_phrase_le_separated (separator : String) (layout : ι → List Piece) {i : ι}
    {items : List ι} (h : i ∈ items) :
    (phrase (layout i)).length ≤
      (phrase (Piece.separated separator (items.map layout))).length := by
  induction items with
  | nil => cases h
  | cons j items ih =>
    cases items with
    | nil => simp [Piece.separated, List.mem_singleton.1 h]
    | cons k items =>
      simp only [List.map_cons, Piece.separated, Piece.phrase_append, Piece.phrase_cons_text,
        List.length_append]
      rcases List.mem_cons.1 h with rfl | h
      · omega
      · have hle := ih h
        simp only [List.map_cons] at hle
        omega

end Lists

/-! ### Selects -/

theorem phrase_clausePieces (keyword : String) (ps? : Option (List Piece)) :
    phrase (clausePieces keyword ps?) = clauseTokens (fixedTokens keyword) (ps?.map phrase) := by
  cases ps? <;> rfl

/-- The entries of a clause that is left out if it has none. -/
def entries? {ι : Type} (entries : List ι) : Option (List ι) :=
  if entries.isEmpty then none else some entries

theorem mem_entries? {ι : Type} {entries is : List ι} (h : is ∈ entries? entries) :
    is = entries ∧ entries ≠ [] := by
  cases entries with
  | nil => cases h
  | cons i entries => exact ⟨(Option.some.inj h).symm, by simp⟩

theorem entries?_of_mem {ι : Type} {entries : List ι} {i : ι} (h : i ∈ entries) :
    entries? entries = some entries := by
  cases entries with
  | nil => cases h
  | cons j entries => rfl

theorem getD_map_entries? {ι α : Type} (entries : List ι) (g : ι → α) :
    ((entries? entries).map (List.map g)).getD [] = entries.map g := by
  cases entries <;> rfl

theorem readsAs_entries {ι α : Type} {entries is : List ι} (his : is ∈ entries? entries)
    {p : Reader α} {layout : ι → List Piece} {g : ι → α}
    (h : ∀ i ∈ entries, ReadsAs p 2 (phrase (layout i)) (g i)) :
    ReadsAs (separated (.mark ',') p) 1 (phrase (Piece.commaSeparated (is.map layout)))
      (is.map g) := by
  obtain ⟨rfl, hne⟩ := mem_entries? his
  exact readsAs_commaSeparated hne h

theorem phrase_groupBy (cs : List Column) :
    phrase (clausePieces " GROUP BY " (if cs.isEmpty then none
        else some (Piece.commaSeparated (cs.map (Column.pieces qualify))))) =
      clauseTokens [.word "GROUP", .word "BY"]
        ((entries? cs).map fun cs =>
          phrase (Piece.commaSeparated (cs.map (Column.pieces qualify)))) := by
  have hgroup : fixedTokens " GROUP BY " = [.word "GROUP", .word "BY"] := by decide
  rw [phrase_clausePieces, hgroup]
  cases cs <;> rfl

theorem phrase_orderBy (ks : List SortKey) :
    phrase (orderPieces (ks.map (SortKey.pieces .postgres qualify))) =
      clauseTokens [.word "ORDER", .word "BY"]
        ((entries? ks).map fun ks =>
          phrase (Piece.commaSeparated (ks.map (SortKey.pieces .postgres qualify)))) := by
  have horder : fixedTokens " ORDER BY " = [.word "ORDER", .word "BY"] := by decide
  cases ks with
  | nil => rfl
  | cons k ks => simp [orderPieces, clauseTokens, entries?, horder]

theorem phrase_pagePieces (limit? offset? : Option Nat) :
    phrase (pagePieces .postgres limit? offset?) =
      clauseTokens [.word "LIMIT"] (limit?.map fun n => [.word (toString n)]) ++
        clauseTokens [.word "OFFSET"] (offset?.map fun n => [.word (toString n)]) := by
  have hlimit : ∀ n : Nat, fixedTokens (" LIMIT " ++ n.repr) =
      [.word "LIMIT", .word n.repr] := fun n =>
    fixedTokens_append_word rfl (isPlainWord_toString n)
  have hoffset : ∀ n : Nat, fixedTokens (" OFFSET " ++ n.repr) =
      [.word "OFFSET", .word n.repr] := fun n =>
    fixedTokens_append_word rfl (isPlainWord_toString n)
  have hunbounded : Dialect.postgres.unboundedLimit? = none := rfl
  cases limit? <;> cases offset? <;> simp [pagePieces, hunbounded, clauseTokens, hlimit, hoffset]

/-- The tokens of a select, clause by clause. -/
theorem Select.phrase_pieces (s : Select) :
    phrase (s.pieces .postgres) =
      .word "SELECT" :: ((if s.distinct then [.word "DISTINCT"] else []) ++
        (phrase (Piece.commaSeparated (resultColumns s.qualifies s.source
          (s.projections.map (Projection.pieces .postgres s.qualifies)))) ++
        .word "FROM" :: (phrase s.source.sourcePieces ++
        ((s.joins.flatMap fun j => phrase (j.pieces .postgres s.qualifies)) ++
        (clauseTokens [.word "WHERE"]
          (s.filter?.map fun e => phrase (e.pieces .postgres s.qualifies)) ++
        (clauseTokens [.word "GROUP", .word "BY"] ((entries? s.groupBy).map fun cs =>
          phrase (Piece.commaSeparated (cs.map (Column.pieces s.qualifies)))) ++
        (clauseTokens [.word "HAVING"]
          (s.having?.map fun e => phrase (e.pieces .postgres s.qualifies)) ++
        (clauseTokens [.word "ORDER", .word "BY"] ((entries? s.orderBy).map fun ks =>
          phrase (Piece.commaSeparated (ks.map (SortKey.pieces .postgres s.qualifies)))) ++
        (clauseTokens [.word "LIMIT"] (s.limit?.map fun n => [.word (toString n)]) ++
        clauseTokens [.word "OFFSET"]
          (s.offset?.map fun n => [.word (toString n)])))))))))) := by
  have hselect : fixedTokens "SELECT " = [.word "SELECT"] := by decide
  have hdistinct : fixedTokens "DISTINCT " = [.word "DISTINCT"] := by decide
  have hfrom : fixedTokens " FROM " = [.word "FROM"] := by decide
  have hwhere : fixedTokens " WHERE " = [.word "WHERE"] := by decide
  have hhaving : fixedTokens " HAVING " = [.word "HAVING"] := by decide
  have hprefix : phrase (if s.distinct then [.text "DISTINCT "] else []) =
      if s.distinct then [.word "DISTINCT"] else [] := by
    cases s.distinct <;> simp [hdistinct]
  have hjoins : phrase (s.joins.flatMap (Join.pieces .postgres s.qualifies)) =
      s.joins.flatMap fun j => phrase (j.pieces .postgres s.qualifies) :=
    List.flatMap_assoc
  rw [Select.pieces_eq]
  simp only [Piece.phrase_append, Piece.phrase_cons_text, hselect, hprefix, hfrom, hjoins,
    phrase_clausePieces " WHERE ", phrase_clausePieces " HAVING ", phrase_groupBy, phrase_orderBy,
    phrase_pagePieces, hwhere, hhaving, Option.map_map, Function.comp_def, List.append_assoc,
    List.cons_append, List.nil_append]

/-- An expression of a clause has fewer tokens than the select. -/
theorem Select.length_phrase_lt (s : Select) :
    ∀ e ∈ s.clauseExprs,
      (phrase (e.pieces .postgres s.qualifies)).length < (phrase (s.pieces .postgres)).length := by
  rw [Select.forall_clauseExprs, Select.phrase_pieces]
  simp only [List.length_cons, List.length_append]
  refine ⟨fun p hp => ?_, fun j hj e he => ?_, fun e he => ?_, fun e he => ?_, fun k hk => ?_⟩
  · have hne : (s.projections.map (Projection.pieces .postgres s.qualifies)).isEmpty = false := by
      rw [List.isEmpty_map]
      exact List.isEmpty_eq_false_iff_exists_mem.2 ⟨p, hp⟩
    have hle : (phrase (p.expr.pieces .postgres s.qualifies)).length ≤
        (phrase (p.pieces .postgres s.qualifies)).length := by
      simp only [Projection.pieces, Piece.phrase_append, List.length_append]
      omega
    have hpart := length_phrase_le_separated ", " (Projection.pieces .postgres s.qualifies) hp
    simp only [resultColumns, hne, Piece.commaSeparated, Bool.false_eq_true, if_false]
    omega
  · have hle : (phrase (e.pieces .postgres s.qualifies)).length ≤
        (phrase (j.pieces .postgres s.qualifies)).length := by
      cases j with
      | on kind t condition =>
        obtain rfl : e = condition := by simpa [Join.condition?] using he
        simp only [Join.pieces, Piece.phrase_append, Piece.phrase_cons_text, List.length_append]
        omega
      | cross t => simp [Join.condition?] at he
    have hpart := (List.sublist_flatten_of_mem (List.mem_map_of_mem
      (f := fun j => phrase (Join.pieces .postgres s.qualifies j)) hj)).length_le
    rw [← List.flatMap_def] at hpart
    omega
  · rw [Option.mem_toList.1 he]
    simp only [Option.map_some, clauseTokens, List.length_append]
    omega
  · rw [Option.mem_toList.1 he]
    simp only [Option.map_some, clauseTokens, List.length_append]
    omega
  · have hle : (phrase (k.expr.pieces .postgres s.qualifies)).length ≤
        (phrase (k.pieces .postgres s.qualifies)).length := by
      rw [SortKey.phrase_pieces, List.length_append]
      omega
    have hpart := length_phrase_le_separated ", " (SortKey.pieces .postgres s.qualifies) hk
    simp only [entries?_of_mem hk, Option.map_some, clauseTokens, Piece.commaSeparated,
      List.length_append]
    omega

theorem join_eq_none {rest : List (Token Value)} (h : Later 1 rest) : join d rest = none := by
  have hcross := h.expect_eq_none (t := .word "CROSS") (by decide) [.word "JOIN"]
  have hchoice : choice joinKeyword [.inner, .left, .right, .full] rest = none := by
    refine choice_eq_none fun kind _ => ?_
    cases kind <;> exact h.expect_eq_none (by decide) _
  simp [join, hcross, hchoice]

/-- Each join starts where its predecessor stops. -/
theorem Join.later_phrase (qualify : Bool) (j : Join) (ts : List (Token Value)) :
    Later 0 (phrase (j.pieces .postgres qualify) ++ ts) := by
  cases j with
  | on kind t condition =>
    have hkind : ∃ u us, fixedTokens (" " ++ kind.sql ++ " ") = u :: us ∧ 0 < u.clauseRank := by
      cases kind <;> exact ⟨_, _, rfl, by decide⟩
    obtain ⟨u, us, htokens, hu⟩ := hkind
    rw [Join.pieces, List.cons_append, Piece.phrase_cons_text, htokens]
    exact ⟨u, _, rfl, hu⟩
  | cross t =>
    have hcross : fixedTokens (" " ++ crossJoinSql ++ " ") = [.word "CROSS", .word "JOIN"] := by
      decide
    rw [Join.pieces, Piece.phrase_cons_text, hcross]
    exact ⟨.word "CROSS", _, rfl, by decide⟩

theorem Select.reads_joins {s : Select} (h : ∀ e ∈ s.clauseExprs, e.ReadsBy d.expr s.qualifies)
    {rest : List (Token Value)} (hrest : Later 1 rest) :
    ∃ ts, (s.joins.flatMap fun j => phrase (j.pieces .postgres s.qualifies)) ++ rest = ts ∧
      many (Reader.join d) ts.length ts = some (s.joins.map (Join.reading s.qualifies), rest) ∧
      Later 0 ts := by
  obtain ⟨-, hjoins, -⟩ := (Select.forall_clauseExprs s).1 h
  refine ⟨_, rfl, ?_, ?_⟩
  · have hne : ∀ j ∈ s.joins, phrase (j.pieces .postgres s.qualifies) ≠ [] := by
      intro j _ hnil
      obtain ⟨t, ts, htokens, -⟩ := j.later_phrase s.qualifies []
      simp [hnil] at htokens
    have hcount := length_le_length_flatMap hne
    exact many_append (Later 0)
      (fun j hj us hus => Join.reads_join (hjoins j hj) (hus.stops (by decide)))
      (fun j _ => j.later_phrase s.qualifies) (hrest.mono (by decide)) (join_eq_none hrest)
      (by rw [List.length_append]; omega)
  · cases s.joins with
    | nil => exact hrest.mono (by decide)
    | cons j js => simpa using j.later_phrase s.qualifies _

theorem Select.readsAs_items {s : Select} (h : ∀ e ∈ s.clauseExprs, e.ReadsBy d.expr s.qualifies)
    (hcolumn : ∀ c, (Expr.column c).ReadsBy d.expr s.qualifies) :
    ReadsAs (separated (.mark ',') (item d)) 1
      (phrase (Piece.commaSeparated (resultColumns s.qualifies s.source
        (s.projections.map (Projection.pieces .postgres s.qualifies)))))
      s.readingItems := by
  obtain ⟨hprojections, -⟩ := (Select.forall_clauseExprs s).1 h
  rw [resultColumns, List.isEmpty_map, Select.readingItems]
  split
  -- A table has columns, so there is always a result column.
  · have hne : s.source.columns ≠ [] := by
      simpa [Table.columns] using s.source.decls_ne_nil
    exact readsAs_commaSeparated hne fun c _ => Column.readsAs_item (hcolumn c)
  · rename_i hne
    exact readsAs_commaSeparated (by simpa using hne) fun p hp =>
      Projection.readsAs_item (hprojections p hp)

theorem reads_distinct (distinct : Bool) {ts : List (Token Value)}
    (h : ∀ us, ts ≠ .word "DISTINCT" :: us) :
    after [.word "SELECT"] (optionally (choice (fun _ => [.word "DISTINCT"]) [()]))
        (.word "SELECT" :: ((if distinct then [.word "DISTINCT"] else []) ++ ts)) =
      some (if distinct then some () else none, ts) := by
  cases distinct with
  | true => simp [after, expect, optionally, choice]
  | false => simp [after, expect, optionally, choice, expect_eq_none h]

/-- A select is read up to a closing parenthesis if the expressions of its clauses are read. -/
theorem Select.readsWithin_select {s : Select}
    (h : ∀ e ∈ s.clauseExprs, e.ReadsBy d.expr s.qualifies)
    (hcolumn : ∀ c, (Expr.column c).ReadsBy d.expr s.qualifies)
    (hdistinct : ∀ us, d.expr (.word "DISTINCT" :: us) = none) :
    ReadsWithin (Reader.select d) (phrase (s.pieces .postgres)) s.reading := by
  obtain ⟨-, -, hfilter, hhaving, horderBy⟩ := (Select.forall_clauseExprs s).1 h
  intro rest
  -- From the last clause to the first, since each clause stops where a later one starts.
  have hlater : Later 7 (.mark ')' :: rest) := ⟨_, _, rfl, by decide⟩
  obtain ⟨ts₇, htokens₇, hoffset, hlater⟩ :=
    hlater.clause (.word "OFFSET") [] s.offset? (g := id) fun n _ => readsAs_number n
  obtain ⟨ts₆, htokens₆, hlimit, hlater⟩ :=
    (hlater 6 (by decide)).clause (.word "LIMIT") [] s.limit? (g := id) fun n _ =>
      readsAs_number n
  obtain ⟨ts₅, htokens₅, horderBy, hlater⟩ :=
    (hlater 5 (by decide)).clause (.word "ORDER") [.word "BY"] (entries? s.orderBy) fun ks hks =>
      readsAs_entries hks fun k hk => SortKey.readsAs_sortKey (horderBy k hk)
  obtain ⟨ts₄, htokens₄, hhaving, hlater⟩ :=
    (hlater 4 (by decide)).clause (.word "HAVING") [] s.having? fun e he =>
      (hhaving e (Option.mem_toList.2 he)).mono (by decide)
  obtain ⟨ts₃, htokens₃, hgroupBy, hlater⟩ :=
    (hlater 3 (by decide)).clause (.word "GROUP") [.word "BY"] (entries? s.groupBy) fun cs hcs =>
      readsAs_entries hcs fun c _ => (c.readsAs_dottedName s.qualifies).mono (by decide)
  obtain ⟨ts₂, htokens₂, hfilter, hlater⟩ :=
    (hlater 2 (by decide)).clause (.word "WHERE") [] s.filter? fun e he =>
      (hfilter e (Option.mem_toList.2 he)).mono (by decide)
  obtain ⟨ts₁, htokens₁, hjoins, hlater⟩ := Select.reads_joins h (hlater 1 (by decide))
  have hsource := s.source.readsAs_tableSource ts₁ (hlater.stops (by decide))
  have hitems := Select.readsAs_items h hcolumn
    (.word "FROM" :: (phrase s.source.sourcePieces ++ ts₁)) (stops_cons.2 (by decide))
  have hne : ∀ us, phrase (Piece.commaSeparated (resultColumns s.qualifies s.source
      (s.projections.map (Projection.pieces .postgres s.qualifies)))) ++
        .word "FROM" :: (phrase s.source.sourcePieces ++ ts₁) ≠ .word "DISTINCT" :: us := by
    intro us hus
    rw [hus] at hitems
    simp [separated, item, hdistinct] at hitems
  have hprefix := reads_distinct s.distinct hne
  have hfrom : after [.word "FROM"] tableSource
      (.word "FROM" :: (phrase s.source.sourcePieces ++ ts₁)) = some (s.source.ref, ts₁) := by
    simpa [after, expect] using hsource
  rw [Select.phrase_pieces, Select.reading_eq]
  simp only [List.cons_append, List.append_assoc, htokens₇, htokens₆, htokens₅, htokens₄, htokens₃,
    htokens₂, htokens₁]
  simp only [Reader.select, Option.bind_eq_bind, hprefix, Option.bind_some, hitems, hfrom, hjoins,
    hfilter, hgroupBy, hhaving, horderBy, hlimit, hoffset]
  have hisSome : (if s.distinct then some () else none).isSome = s.distinct := by
    cases s.distinct <;> rfl
  rw [hisSome, getD_map_entries?, getD_map_entries?, Option.map_id]
  rfl

end TypedSql
