import TypedSql.Proofs.Binding

/-!
# What the names of sort keys denote

A name that stands alone in `ORDER BY` denotes the result column of that name, and a column of the
tables only where there is no such result column. A builder checks that a sort key is a column in
sight, and for a compound select that it is a result column under its own name; the names of other
result columns it does not compare with it.

`Select.results` are the result columns and `Projection.outputName?` is the name of one. A result
column that has the name of a sort key and is another one is there for one of two reasons: it was
given that name, or it belongs to another table of the select. For a select whose columns are written
without qualifiers there is no other table.
-/

namespace TypedSql

/-- The name of a result column: its alias, or the name of the column that it is. -/
def Projection.outputName? (p : Projection) : Option String :=
  match p.alias? with
  | some name => some name
  | none => p.expr.column?.map Column.name

/-- A result column is a column itself. -/
def Projection.IsColumn (p : Projection) (c : Column) : Prop :=
  ∃ d, p.expr = .column d ∧ d.sameAs c = true

/-- A result column is another column of that name, of another one of some tables. -/
def Projection.IsNamesake (p : Projection) (sources : List TableRef) (c : Column) : Prop :=
  p.alias? = none ∧ ∃ d, p.expr = .column d ∧ d.name = c.name ∧ d.table ≠ c.table ∧
    d.table ∈ sources

namespace Select

/-- The result columns of a select, which are all columns of its first table if it lists none. -/
def results (s : Select) : List Projection :=
  if s.projections.isEmpty then s.source.columns.map fun c => ⟨.column c, none⟩ else s.projections

section Results

variable {tables : Set Table} {s : Select} {c : Column} {p : Projection}

/-- A column that is a result column is one of a table of the select. -/
theorem IsScoped.table_mem_sources (hs : s.IsScoped tables) (hp : p ∈ s.results)
    (hc : p.expr = .column c) : c.table ∈ s.sources := by
  unfold results at hp
  split at hp
  · obtain ⟨d, hd, rfl⟩ := List.mem_map.1 hp
    cases hc
    simp [Table.table_of_mem_columns hd, sources, localRefs]
  · have hclause : p.expr ∈ s.clauseExprs := (s.forall_clauseExprs.1 fun _ h => h).1 p hp
    exact hs.clauses p.expr hclause c (by simp [hc, Expr.columns])

/-- A result column with the name of a column is that column, or was given the name, or is of another
table. -/
theorem IsScoped.result_of_name (hs : s.IsScoped tables) (hp : p ∈ s.results)
    (hname : p.outputName? = some c.name) :
    p.IsColumn c ∨ p.alias? = some c.name ∨ p.IsNamesake s.sources c := by
  unfold Projection.outputName? at hname
  split at hname
  · rename_i name halias
    exact .inr (.inl (halias.trans hname))
  · rename_i halias
    obtain ⟨d, hd, hdname⟩ := Option.map_eq_some_iff.1 hname
    have hexpr := Expr.column?_eq_some_iff.1 hd
    by_cases htable : d.table = c.table
    · exact .inl ⟨d, hexpr, (Column.sameAs_iff d c).2 ⟨hdname, htable⟩⟩
    · exact .inr (.inr ⟨halias, d, hexpr, hdname, htable, hs.table_mem_sources hp hexpr⟩)

/-- A select that writes a column without its qualifier ranges over one table. -/
theorem sources_of_bare (h : c.pieces s.qualifies = [.identifier c.name]) :
    s.sources = [s.source.ref] := by
  have hqualifies : s.qualifies = false := by
    cases hq : s.qualifies
    · rfl
    · simp [hq, Column.pieces] at h
  simp only [qualifies, Bool.or_eq_false_iff, Bool.not_eq_false', List.isEmpty_iff] at hqualifies
  simp [sources, localRefs, hqualifies.1, hqualifies.2]

/-- A column that a select sorts by and writes without its qualifier is a column of its only table. -/
theorem IsScoped.sources_of_sortKey (hs : s.IsScoped tables) {k : SortKey} (hk : k ∈ s.orderBy)
    (hc : k.expr = .column c) (hbare : c.pieces s.qualifies = [.identifier c.name]) :
    s.sources = [c.table] := by
  have hclause : k.expr ∈ s.clauseExprs := (s.forall_clauseExprs.1 fun _ h => h).2.2.2.2 k hk
  have hmem := hs.clauses k.expr hclause c (by simp [hc, Expr.columns])
  rw [sources_of_bare hbare, List.mem_singleton] at hmem
  rw [sources_of_bare hbare, hmem]

/-- The check of a compound select is for a result column without an alias. -/
theorem exists_result_of_projects (h : s.projects c = true) :
    ∃ p ∈ s.results, p.alias? = none ∧ p.IsColumn c := by
  unfold projects at h
  unfold results
  split at h
  · obtain ⟨d, hd, hsame⟩ := List.any_eq_true.1 h
    rw [if_pos (by assumption)]
    exact ⟨_, List.mem_map_of_mem hd, rfl, d, rfl, hsame⟩
  · rw [if_neg (by assumption)]
    obtain ⟨p, hp, hproject⟩ := List.any_eq_true.1 h
    obtain ⟨halias, hsame⟩ := Bool.and_eq_true_iff.1 hproject
    refine ⟨p, hp, by simpa using halias, ?_⟩
    split at hsame
    · rename_i d hd
      exact ⟨d, Expr.column?_eq_some_iff.1 hd, hsame⟩
    · cases hsame

end Results

end Select

section Keys

variable {tables : Set Table}

theorem CompoundSelect.Built.first {cs : CompoundSelect} (h : cs.Built tables) :
    cs.first.Built tables :=
  (h.everywhere.members cs.first (List.mem_cons_self ..)).here

/-- The sort keys of a compound select are columns of the first table of its first member, which are
result columns of that member. -/
theorem CompoundSelect.Built.sortKey {cs : CompoundSelect} (h : cs.Built tables) :
    ∀ k ∈ cs.orderBy, ∃ c, k.expr = .column c ∧ c.table = cs.first.source.ref ∧
      cs.first.projects c = true := by
  induction h with
  | ofSelect hs h =>
    obtain rfl := ofSelect_eq_ok h
    exact List.forall_mem_nil _
  | combine hc hmember h ih =>
    obtain rfl := combine_eq_ok h
    exact ih
  | sort hc hk h ih =>
    obtain ⟨hcolumn, rfl⟩ := sort_eq_ok h
    exact List.forall_mem_append.2 ⟨ih, List.forall_mem_singleton.2 hcolumn⟩
  | limit n hc ih => exact ih
  | offset n hc ih => exact ih

/--
**The name of a sort key denotes the column that was passed, or what was given that name.** A column
that a select sorts by and writes without a qualifier is a column of its only table, and a result
column of that name is that column unless it was given the name as an alias. A compound select
sorts by columns that are result columns of its first member without aliases, and any other result
column of that name was given the name or is of another table of that member.
-/
theorem isColumn_or_alias_of_sortKey (tables : Set Table) :
    (∀ s : Select, s.Built tables → ∀ k ∈ s.orderBy, ∀ c, k.expr = .column c →
      c.pieces s.qualifies = [.identifier c.name] →
        s.sources = [c.table] ∧ ∀ p ∈ s.results, p.outputName? = some c.name →
          p.IsColumn c ∨ p.alias? = some c.name) ∧
      ∀ cs : CompoundSelect, cs.Built tables → ∀ k ∈ cs.orderBy, ∃ c, k.expr = .column c ∧
        c.table = cs.first.source.ref ∧
        (∃ p ∈ cs.first.results, p.alias? = none ∧ p.IsColumn c) ∧
        ∀ p ∈ cs.first.results, p.outputName? = some c.name →
          p.IsColumn c ∨ p.alias? = some c.name ∨ p.IsNamesake cs.first.sources c := by
  constructor
  · intro s hs k hk c hc hbare
    have hsources := hs.isScoped.sources_of_sortKey hk hc hbare
    refine ⟨hsources, fun p hp hname => ?_⟩
    obtain hcolumn | halias | ⟨-, d, -, -, hne, hd⟩ := hs.isScoped.result_of_name hp hname
    · exact .inl hcolumn
    · exact .inr halias
    · rw [hsources, List.mem_singleton] at hd
      exact absurd hd hne
  · intro cs hcs k hk
    obtain ⟨c, hc, htable, hprojects⟩ := hcs.sortKey k hk
    exact ⟨c, hc, htable, Select.exists_result_of_projects hprojects, fun p hp hname =>
      hcs.first.isScoped.result_of_name hp hname⟩

end Keys

/-! ### Goods by their prices -/

/-- Sort by the price of goods. -/
def byPrice : SortKey :=
  ⟨.column price, .ascending, none⟩

/-- The goods by their prices. -/
def goodsInOrder : Select :=
  { Select.ofTable goods with orderBy := [byPrice] }

/-- The prices of goods and of orders in one order. -/
def pricesInOrder : CompoundSelect where
  first := .ofTable goods
  rest := [(.union, .ofTable orders)]
  orderBy := [byPrice]
  limit? := none
  offset? := none

/-- A step of a select from goods and orders that is given nothing else. -/
theorem built_step_goods_orders {s s' : Select} (hs : s.Built {goods, orders}) (st : Select.Step)
    (h : s.step st = .ok s') (hexprs : ∀ e ∈ st.exprs, e.Built {goods, orders})
    (htables : ∀ t ∈ st.tables, t = goods ∨ t = orders) (hcolumns : st.columns = []) :
    s'.Built {goods, orders} :=
  .step hs hexprs htables (by simp [hcolumns]) h

theorem built_price : (Expr.column price).Built {goods, orders} :=
  .column ⟨goods, .inl rfl, .head _⟩

theorem built_goodsInOrder : goodsInOrder.Built {goods, orders} :=
  built_step_goods_orders (.ofTable (.inl rfl)) (.sort byPrice) rfl
    (List.forall_mem_singleton.2 built_price) (List.forall_mem_nil _) rfl

theorem built_pricesInOrder : pricesInOrder.Built {goods, orders} := by
  have hunion : CompoundSelect.step ⟨.ofTable goods, [], [], none, none⟩
      (.combine .union (.ofTable orders)) =
        .ok ⟨.ofTable goods, [(.union, .ofTable orders)], [], none, none⟩ := rfl
  have hsort : CompoundSelect.step ⟨.ofTable goods, [(.union, .ofTable orders)], [], none, none⟩
      (.sort byPrice) = .ok pricesInOrder := rfl
  exact .sort (.combine (.ofSelect (.ofTable (.inl rfl)) rfl) (.ofTable (.inr rfl)) hunion)
    built_price hsort

theorem isColumn_or_alias_of_sortKey_goodsInOrder :
    goodsInOrder.Built {goods, orders} ∧ pricesInOrder.Built {goods, orders} ∧
      byPrice ∈ goodsInOrder.orderBy ∧ byPrice ∈ pricesInOrder.orderBy ∧
      price.pieces goodsInOrder.qualifies = [.identifier price.name] ∧
      goodsInOrder.sources = [price.table] ∧
      ∃ c, byPrice.expr = .column c ∧ ∃ p ∈ pricesInOrder.first.results, p.IsColumn c := by
  obtain ⟨hselect, hcompound⟩ := isColumn_or_alias_of_sortKey {goods, orders}
  obtain ⟨hsources, -⟩ := hselect _ built_goodsInOrder byPrice (.head _) price rfl rfl
  obtain ⟨c, hc, -, ⟨p, hp, -, hcolumn⟩, -⟩ := hcompound _ built_pricesInOrder byPrice (.head _)
  exact ⟨built_goodsInOrder, built_pricesInOrder, .head _, .head _, rfl, hsources, c, hc, p, hp,
    hcolumn⟩

/-- The prices of goods below zero, under the name of the prices. -/
def pricesBelowZero : Select :=
  { Select.ofTable goods with
    projections := [⟨.negation (.column price), some "price"⟩]
    orderBy := [byPrice] }

/-- The price of an order. -/
def orderedPrice : Column :=
  ⟨orders.ref, ⟨"price", .integer, true, none⟩⟩

/-- The prices of goods beside the prices of orders. -/
def pricesSideBySide : Select :=
  { Select.ofTable goods with
    projections := [⟨.column price, none⟩, ⟨.column orderedPrice, none⟩]
    joins := [.cross orders] }

/-- These prices without repetitions, by the prices of goods. -/
def pairsInOrder : CompoundSelect where
  first := pricesSideBySide
  rest := [(.union, pricesSideBySide)]
  orderBy := [byPrice]
  limit? := none
  offset? := none

theorem built_pricesBelowZero : pricesBelowZero.Built {goods, orders} := by
  have hproject : (Select.ofTable goods).step
      (.projectAs (.negation (.column price)) "price") =
        .ok { Select.ofTable goods with
          projections := [⟨.negation (.column price), some "price"⟩] } := rfl
  have hprojected := built_step_goods_orders (.ofTable (.inl rfl)) _ hproject
    (List.forall_mem_singleton.2 (.neg built_price rfl)) (List.forall_mem_nil _) rfl
  exact built_step_goods_orders hprojected (.sort byPrice) rfl
    (List.forall_mem_singleton.2 built_price) (List.forall_mem_nil _) rfl

theorem built_pricesSideBySide : pricesSideBySide.Built {goods, orders} := by
  have hjoin : (Select.ofTable goods).step (.crossJoin orders) =
      .ok { Select.ofTable goods with joins := [.cross orders] } := rfl
  have hjoined := built_step_goods_orders (.ofTable (.inl rfl)) _ hjoin (List.forall_mem_nil _)
    (List.forall_mem_singleton.2 (.inr rfl)) rfl
  have hordered : (Expr.column orderedPrice).Built {goods, orders} :=
    .column ⟨orders, .inr rfl, .head _⟩
  exact built_step_goods_orders hjoined (.project [.column price, .column orderedPrice]) rfl
    (List.forall_mem_cons.2 ⟨built_price, List.forall_mem_singleton.2 hordered⟩)
    (List.forall_mem_nil _) rfl

theorem built_pairsInOrder : pairsInOrder.Built {goods, orders} := by
  have hunion : CompoundSelect.step ⟨pricesSideBySide, [], [], none, none⟩
      (.combine .union pricesSideBySide) =
        .ok ⟨pricesSideBySide, [(.union, pricesSideBySide)], [], none, none⟩ := rfl
  have hsort : CompoundSelect.step
      ⟨pricesSideBySide, [(.union, pricesSideBySide)], [], none, none⟩ (.sort byPrice) =
        .ok pairsInOrder := rfl
  exact .sort (.combine (.ofSelect built_pricesSideBySide rfl) built_pricesSideBySide hunion)
    built_price hsort

/-- **The name of a sort key may denote another result column**: one that was given the name, and in
a compound select one of another table. -/
theorem not_isColumn_pricesBelowZero :
    (pricesBelowZero.Built {goods, orders} ∧ byPrice ∈ pricesBelowZero.orderBy ∧
        price.pieces pricesBelowZero.qualifies = [.identifier price.name] ∧
        (∃ p ∈ pricesBelowZero.results, p.outputName? = some price.name ∧ ¬ p.IsColumn price) ∧
        ((Statement.select pricesBelowZero).compile .postgres).sql =
          "SELECT -\"price\" AS \"price\" FROM \"goods\" ORDER BY \"price\" ASC") ∧
      pairsInOrder.Built {goods, orders} ∧ byPrice ∈ pairsInOrder.orderBy ∧
      (∃ p ∈ pairsInOrder.first.results, p.outputName? = some price.name ∧ ¬ p.IsColumn price) ∧
      ((Statement.compound pairsInOrder).compile .postgres).sql =
        "SELECT \"goods\".\"price\", \"orders\".\"price\" FROM \"goods\" CROSS JOIN \"orders\"" ++
          " UNION SELECT \"goods\".\"price\", \"orders\".\"price\" FROM \"goods\"" ++
          " CROSS JOIN \"orders\" ORDER BY \"price\" ASC" := by
  refine ⟨⟨built_pricesBelowZero, .head _, rfl, ⟨_, .head _, rfl, ?_⟩, rfl⟩, built_pairsInOrder,
    .head _, ⟨_, .tail _ (.head _), rfl, ?_⟩, by decide +kernel⟩
  · rintro ⟨d, hd, -⟩
    cases hd
  · rintro ⟨d, hd, hsame⟩
    cases hd
    exact absurd hsame (by decide)

end TypedSql
