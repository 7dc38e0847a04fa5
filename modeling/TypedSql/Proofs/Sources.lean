import TypedSql.Proofs.Literals
import TypedSql.Proofs.Masking

/-!
# What qualifiers designate

A column is written with the qualifier of its table, which is an alias or a name, while a select
knows its sources by references, which hold schema, name and alias. References that differ may share
their qualifier, and then what is written does not say which source is meant. A select takes on the
tables that its steps are given (`Select.mem_sources_build`), and a join is refused only for a
reference that the select has (`Select.join_eq_joinedTwice_iff`). So whether qualifiers designate one
source each is up to the tables, as `Select.designates_build_iff` says.
-/

namespace TypedSql

/-- References with one qualifier are one reference. -/
def AreToldApart (refs : List TableRef) : Prop :=
  ∀ r ∈ refs, ∀ r' ∈ refs, r.qualifier = r'.qualifier → r = r'

/-- Qualified columns are written alike when qualifiers and names agree. -/
theorem Column.pieces_eq_iff {c c' : Column} :
    c.pieces true = c'.pieces true ↔ c.qualifier = c'.qualifier ∧ c.name = c'.name := by
  simp [Column.pieces]

namespace Select

/-- Qualified columns of the sources of a select that are written alike belong to one source. -/
def Designates (s : Select) : Prop :=
  ∀ c c' : Column, c.table ∈ s.sources → c'.table ∈ s.sources → c.pieces true = c'.pieces true →
    c.table = c'.table

/-- Perform steps one after the other, starting from the rows of a table. -/
def build (t : Table) (steps : List Step) : Except BuildError Select :=
  steps.foldlM step (ofTable t)

variable {s s' : Select} {t : Table} {r : TableRef}

/-! ### The sources of a select -/

/-- A joined table is a source beside those that were there. -/
theorem mem_sources_addJoin (j : Join) :
    r ∈ { s with joins := s.joins ++ [j] }.sources ↔ r ∈ s.sources ∨ r = j.table.ref := by
  simp only [sources, localRefs, List.map_append, List.map_cons, List.map_nil, List.mem_append,
    List.mem_cons, List.not_mem_nil, or_false]
  tauto

/-- A step adds the tables that it is given, and takes no source away. -/
theorem mem_sources_step {st : Step} (h : s.step st = .ok s') :
    r ∈ s'.sources ↔ r ∈ s.sources ∨ r ∈ st.tables.map Table.ref := by
  obtain rfl := step_eq_stepped h
  cases st with
  | correlate t => simp [sources, localRefs, stepped, correlate, Step.tables, or_assoc]
  | join kind t condition =>
    rw [stepped, mem_sources_addJoin, Step.tables, List.map_singleton, List.mem_singleton]
    rfl
  | crossJoin t =>
    rw [stepped, mem_sources_addJoin, Step.tables, List.map_singleton, List.mem_singleton]
    rfl
  | _ => exact (or_iff_left List.not_mem_nil).symm

theorem mem_sources_run {steps : List Step} (h : steps.foldlM step s = .ok s') :
    r ∈ s'.sources ↔ r ∈ s.sources ∨ r ∈ (steps.flatMap Step.tables).map Table.ref := by
  induction steps generalizing s with
  | nil =>
    cases h
    simp
  | cons st steps ih =>
    rw [List.foldlM_cons] at h
    obtain ⟨next, hstep, hrest⟩ := bind_eq_ok.1 h
    rw [ih hrest, mem_sources_step hstep, List.flatMap_cons, List.map_append, List.mem_append,
      or_assoc]

/-- The sources of a select are its first table and the tables that its steps are given. -/
theorem mem_sources_build {steps : List Step} (h : build t steps = .ok s) :
    r ∈ s.sources ↔ r ∈ (t :: steps.flatMap Step.tables).map Table.ref := by
  rw [mem_sources_run h, List.map_cons, List.mem_cons]
  simp [sources, localRefs, ofTable]

/-! ### What is designated -/

theorem designates_iff : s.Designates ↔ AreToldApart s.sources := by
  constructor
  · intro h r hr r' hr' hqualifier
    let decl : ColumnDecl := ⟨"c", .integer, true, none⟩
    exact h ⟨r, decl⟩ ⟨r', decl⟩ hr hr' (Column.pieces_eq_iff.2 ⟨hqualifier, rfl⟩)
  · intro h c c' hc hc' hpieces
    exact h c.table hc c'.table hc' (Column.pieces_eq_iff.1 hpieces).1

/-! ### What is refused -/

theorem expectCondition_ne_joinedTwice {e : Expr} {clause : ConditionClause} {q : String} :
    e.expectCondition clause ≠ .error (.joinedTwice q) := by
  unfold Expr.expectCondition Expr.expectClass
  split
  · split <;> nofun
  · nofun

theorem expectBound_ne_joinedTwice {e : Expr} {q : String} :
    s.expectBound e ≠ .error (.joinedTwice q) := by
  unfold expectBound Expr.expectBound
  split <;> nofun

theorem expectNew_eq_error_iff {fault : BuildError} :
    s.expectNew t = .error fault ↔ t.ref ∈ s.sources ∧ fault = .joinedTwice t.ref.qualifier := by
  unfold expectNew
  by_cases hmem : t.ref ∈ s.sources
  · rw [if_pos hmem, Except.error.injEq, eq_comm, and_iff_right hmem]
  · rw [if_neg hmem]
    exact iff_of_false nofun fun h => hmem h.1

/-- A join on a condition is refused for a reference that the select has, before the condition is
looked at, and for no other reference. -/
theorem join_eq_joinedTwice_iff {kind : JoinKind} {condition : Expr} :
    s.join kind t condition = .error (.joinedTwice t.ref.qualifier) ↔ t.ref ∈ s.sources := by
  constructor
  · intro h
    rcases bind_eq_error.1 h with hnew | ⟨_, -, h⟩
    · exact (expectNew_eq_error_iff.1 hnew).1
    · rcases bind_eq_error.1 h with hcondition | ⟨_, -, h⟩
      · exact absurd hcondition expectCondition_ne_joinedTwice
      · rcases bind_eq_error.1 h with hbound | ⟨_, -, h⟩
        · exact absurd hbound expectBound_ne_joinedTwice
        · cases h
  · intro hmem
    exact bind_eq_error.2 (.inl (expectNew_eq_error_iff.2 ⟨hmem, rfl⟩))

/-- A join without a condition is refused in the same way. -/
theorem crossJoin_eq_joinedTwice_iff :
    s.crossJoin t = .error (.joinedTwice t.ref.qualifier) ↔ t.ref ∈ s.sources := by
  constructor
  · intro h
    rcases bind_eq_error.1 h with hnew | ⟨_, -, h⟩
    · exact (expectNew_eq_error_iff.1 hnew).1
    · cases h
  · intro hmem
    exact bind_eq_error.2 (.inl (expectNew_eq_error_iff.2 ⟨hmem, rfl⟩))

/-- **Qualifiers designate one source each exactly if they tell the tables apart that a select is
given.** A join is refused for a reference that the select has already, and for no other one of the
same qualifier. -/
theorem designates_build_iff {steps : List Step} (h : build t steps = .ok s) :
    (s.Designates ↔ AreToldApart ((t :: steps.flatMap Step.tables).map Table.ref)) ∧
      ∀ u : Table,
        (∀ kind condition, s.step (.join kind u condition) =
            .error (.joinedTwice u.ref.qualifier) ↔ u.ref ∈ s.sources) ∧
          (s.step (.crossJoin u) = .error (.joinedTwice u.ref.qualifier) ↔ u.ref ∈ s.sources) := by
  constructor
  · rw [designates_iff]
    unfold AreToldApart
    simp only [mem_sources_build h]
  · intro u
    exact ⟨fun kind condition => join_eq_joinedTwice_iff, crossJoin_eq_joinedTwice_iff⟩

/-- The goods with all orders. -/
def goodsWithOrders : Select :=
  { ofTable goods with joins := [.cross orders] }

theorem designates_build_goodsWithOrders :
    build goods [.crossJoin orders] = .ok goodsWithOrders ∧ goodsWithOrders.Designates ∧
      goodsWithOrders.step (.crossJoin goods) = .error (.joinedTwice "goods") := by
  have hbuild : build goods [.crossJoin orders] = .ok goodsWithOrders := rfl
  obtain ⟨hdesignates, hrefused⟩ := designates_build_iff hbuild
  refine ⟨hbuild, hdesignates.2 ?_, (hrefused goods).2.2 (by decide)⟩
  unfold AreToldApart
  decide

/-! ### Tables under one alias -/

/-- The prices of a table, of goods and orders that are under one alias. -/
def pricesUnderAlias (t : Table) : Except BuildError Select :=
  build (goods.aliased "x")
    [.crossJoin (orders.aliased "x"), .project [.column ⟨t.ref, ⟨"price", .integer, true, none⟩⟩]]

/-- **Two tables may share an alias**, and then the text for the prices of one of them is the text
for the prices of the other. -/
theorem not_designates_pricesUnderAlias :
    ∃ s s', pricesUnderAlias (goods.aliased "x") = .ok s ∧
      pricesUnderAlias (orders.aliased "x") = .ok s' ∧ ¬ s.Designates ∧ s ≠ s' ∧
      ((Statement.select s).compile .postgres).sql =
        "SELECT \"x\".\"price\" FROM \"goods\" AS \"x\" CROSS JOIN \"orders\" AS \"x\"" ∧
      ((Statement.select s').compile .postgres).sql =
        "SELECT \"x\".\"price\" FROM \"goods\" AS \"x\" CROSS JOIN \"orders\" AS \"x\"" := by
  refine ⟨_, _, rfl, rfl, ?_, ?_, rfl, rfl⟩
  · rw [designates_iff]
    unfold AreToldApart
    decide
  · intro h
    have htables := congrArg (fun s => s.projections.map fun p => p.expr.column?.map Column.table) h
    exact absurd htables (by decide)

end Select

end TypedSql
