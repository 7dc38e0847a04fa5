import Mathlib.Data.List.Nodup
import TypedSql.Proofs.Formation
import TypedSql.Proofs.Lexing
import TypedSql.Proofs.Literals
import TypedSql.Proofs.Mentions

/-!
# References of built statements

A select checks the columns of a clause when the clause is attached, against the tables that it has
then; it is written later, with one decision on qualifiers for all of its clauses, inside scopes
that it does not know. `Select.IsScoped` is what the checks establish and every later step
preserves. `Statement.references_isSound` draws the conclusion: every reference that is written is
resolved to the table that its column is bound to.
-/

namespace TypedSql

namespace Select

/-! ### What building a select establishes -/

/-- The tables and the clauses of a select are in order: it ranges over no table twice, its clauses
use columns of its sources, and the condition of a join uses no table that is joined later. -/
structure IsScoped (tables : Set Table) (s : Select) : Prop where
  scope : IsScope tables s.localTables
  clauses : ∀ e ∈ s.clauseExprs, s.Binds e
  groups : ∀ c ∈ s.groupBy, c.table ∈ s.sources ∧ c.IsOf tables
  conditions : ∀ pre j post, s.joins = pre ++ j :: post → ∀ e ∈ j.condition?.toList,
    ∀ c ∈ e.columns, c.table ∈ s.localRefs →
      c.table ∈ (s.source :: (pre ++ [j]).map Join.table).map Table.ref

variable {tables : Set Table} {s s' : Select}

theorem map_ref_localTables (s : Select) : s.localTables.map Table.ref = s.localRefs := by
  simp [localTables, localRefs]

theorem isScoped_ofTable {t : Table} (ht : t ∈ tables) : (ofTable t).IsScoped tables where
  scope := ⟨by simpa [localTables, ofTable] using ht, by simp [localTables, ofTable]⟩
  clauses := List.forall_mem_nil _
  groups := List.forall_mem_nil _
  conditions pre j post h := by
    cases pre <;> cases h

theorem binds_attach {condition? : Option Expr} {e f : Expr}
    (h : Expr.attach condition? e = .ok f) (hcondition : ∀ x ∈ condition?.toList, s.Binds x)
    (he : s.Binds e) : s.Binds f := by
  intro c hc
  rw [Expr.columns_attach h, List.mem_append, List.mem_flatMap] at hc
  rcases hc with ⟨x, hx, hc⟩ | hc
  · exact hcondition x hx c hc
  · exact he c hc

/-- A table that is new can be joined on a condition that uses it and the tables before it. -/
theorem IsScoped.addJoin (hs : s.IsScoped tables) {j : Join} (hj : j.table ∈ tables)
    (hnew : j.table.ref ∉ s.sources)
    (hbinds : ∀ e ∈ j.condition?.toList, { s with joins := s.joins ++ [j] }.Binds e) :
    { s with joins := s.joins ++ [j] }.IsScoped tables := by
  set s' : Select := { s with joins := s.joins ++ [j] } with hs'
  have htables : s'.localTables = s.localTables ++ [j.table] := by simp [localTables, hs']
  have hrefs : s'.localRefs = s.localRefs ++ [j.table.ref] := by simp [localRefs, hs']
  have hsources : ∀ r ∈ s.sources, r ∈ s'.sources := by
    intro r hr
    simp only [sources, hrefs, List.mem_append] at hr ⊢
    exact hr.elim (fun h => .inl (.inl h)) .inr
  have hold : ∀ e, s.Binds e → s'.Binds e := fun e h c hc => hsources _ (h c hc)
  refine ⟨⟨?_, ?_⟩, ?_, fun c hc => ⟨hsources _ (hs.groups c hc).1, (hs.groups c hc).2⟩, ?_⟩
  · rw [htables]
    exact List.forall_mem_append.2 ⟨hs.scope.1, List.forall_mem_singleton.2 hj⟩
  · rw [map_ref_localTables, hrefs]
    refine List.nodup_append.2 ⟨map_ref_localTables s ▸ hs.scope.2, by simp, ?_⟩
    rintro r hr _ hmem rfl
    rw [List.mem_singleton.1 hmem] at hr
    exact hnew (List.mem_append_left _ hr)
  -- What the other clauses use is still in sight.
  · obtain ⟨hprojections, hjoins, hfilter, hhaving, horder⟩ := s.forall_clauseExprs.1 hs.clauses
    refine s'.forall_clauseExprs.2 ⟨fun p hp => hold _ (hprojections p hp),
      List.forall_mem_append.2 ⟨fun k hk e he => hold e (hjoins k hk e he),
        List.forall_mem_singleton.2 hbinds⟩, fun e he => hold e (hfilter e he),
      fun e he => hold e (hhaving e he), fun k hk => hold _ (horder k hk)⟩
  · intro pre k post hsplit e he c hc hlocal
    rcases List.eq_nil_or_concat post with rfl | ⟨post, k', rfl⟩
    · -- The new join sees all tables.
      obtain ⟨rfl, hk⟩ := List.append_inj' hsplit rfl
      obtain rfl := List.singleton_inj.1 hk
      have hall : (s.source :: (s.joins ++ [j]).map Join.table).map Table.ref = s'.localRefs := by
        simp [localRefs, hs']
      rwa [hall]
    · -- An earlier join does not use the new table.
      have hsplit' : s.joins ++ [j] = (pre ++ k :: post) ++ [k'] := by simpa using hsplit
      obtain ⟨hjoins, hk⟩ := List.append_inj' hsplit' rfl
      have hmem : k ∈ s.joins := by simp [hjoins]
      have hclause : s.Binds e :=
        (s.forall_clauseExprs.1 hs.clauses).2.1 k hmem e he
      have holdRef : c.table ∈ s.localRefs := by
        rw [hrefs] at hlocal
        rcases List.mem_append.1 hlocal with h | h
        · exact h
        · rw [List.mem_singleton] at h
          exact absurd (h ▸ hclause c hc) hnew
      exact hs.conditions pre k post hjoins e he c hc holdRef

/-- Every step of building a select keeps it in order. -/
theorem IsScoped.step (hs : s.IsScoped tables) {st : Step} (htables : ∀ t ∈ st.tables, t ∈ tables)
    (hcolumns : ∀ c ∈ st.columns, c.IsOf tables) (h : s.step st = .ok s') :
    s'.IsScoped tables := by
  obtain ⟨hprojections, hjoins, hfilter, hhaving, horder⟩ := s.forall_clauseExprs.1 hs.clauses
  cases st with
  | project es =>
    obtain ⟨hbinds, rfl⟩ := project_eq_ok h
    refine ⟨hs.scope, (forall_clauseExprs _).2 ⟨?_, hjoins, hfilter, hhaving, horder⟩, hs.groups,
      hs.conditions⟩
    exact List.forall_mem_append.2 ⟨hprojections, List.forall_mem_map.2 hbinds⟩
  | projectAs e name =>
    obtain ⟨hbinds, rfl⟩ := projectAs_eq_ok h
    refine ⟨hs.scope, (forall_clauseExprs _).2 ⟨?_, hjoins, hfilter, hhaving, horder⟩, hs.groups,
      hs.conditions⟩
    exact List.forall_mem_append.2 ⟨hprojections, List.forall_mem_singleton.2 hbinds⟩
  | dropDuplicates =>
    cases h
    exact ⟨hs.scope, hs.clauses, hs.groups, hs.conditions⟩
  -- An outer table comes into sight, and none goes out of it.
  | correlate t =>
    cases h
    have hold : ∀ r ∈ s.sources, r ∈ (s.correlate t).sources := by
      intro r hr
      simp only [sources, correlate, List.map_append, ← List.append_assoc]
      exact List.mem_append_left _ hr
    exact ⟨hs.scope, fun e he c hc => hold _ (hs.clauses e he c hc),
      fun c hc => ⟨hold _ (hs.groups c hc).1, (hs.groups c hc).2⟩, hs.conditions⟩
  | join kind t condition =>
    obtain ⟨hnew, -, hbinds, rfl⟩ := join_eq_ok h
    exact hs.addJoin (j := .on kind t condition) (htables t (by simp [Step.tables])) hnew
      (List.forall_mem_singleton.2 hbinds)
  | crossJoin t =>
    obtain ⟨hnew, rfl⟩ := crossJoin_eq_ok h
    exact hs.addJoin (j := .cross t) (htables t (by simp [Step.tables])) hnew
      (List.forall_mem_nil _)
  | filterBy e =>
    obtain ⟨-, hbinds, filter, hattach, rfl⟩ := filterBy_eq_ok h
    refine ⟨hs.scope, (forall_clauseExprs _).2 ⟨hprojections, hjoins, ?_, hhaving, horder⟩,
      hs.groups, hs.conditions⟩
    exact List.forall_mem_singleton.2 (binds_attach hattach hfilter hbinds)
  | group columns =>
    obtain ⟨hin, rfl⟩ := group_eq_ok h
    exact ⟨hs.scope, hs.clauses, fun c hc => ⟨hin c hc, hcolumns c hc⟩, hs.conditions⟩
  | havingBy e =>
    obtain ⟨-, hbinds, having, hattach, rfl⟩ := havingBy_eq_ok h
    refine ⟨hs.scope, (forall_clauseExprs _).2 ⟨hprojections, hjoins, hfilter, ?_, horder⟩,
      hs.groups, hs.conditions⟩
    exact List.forall_mem_singleton.2 (binds_attach hattach hhaving hbinds)
  | sort k =>
    obtain ⟨hbinds, rfl⟩ := sort_eq_ok h
    refine ⟨hs.scope, (forall_clauseExprs _).2 ⟨hprojections, hjoins, hfilter, hhaving, ?_⟩,
      hs.groups, hs.conditions⟩
    exact List.forall_mem_append.2 ⟨horder, List.forall_mem_singleton.2 hbinds⟩
  | limit n =>
    cases h
    exact ⟨hs.scope, hs.clauses, hs.groups, hs.conditions⟩
  | offset n =>
    cases h
    exact ⟨hs.scope, hs.clauses, hs.groups, hs.conditions⟩

end Select

/-- All columns belong to some tables, and all selects are in order. -/
abbrev Expr.IsWellScoped (tables : Set Table) (e : Expr) : Prop :=
  e.Everywhere (fun x => ∀ c, x.column? = some c → c.IsOf tables) (Select.IsScoped tables)

/-- All columns belong to some tables, and all selects are in order. -/
abbrev Select.IsWellScoped (tables : Set Table) (s : Select) : Prop :=
  s.Everywhere (fun x => ∀ c, x.column? = some c → c.IsOf tables) (Select.IsScoped tables)

theorem Select.Built.isScoped {tables : Set Table} {s : Select} (h : s.Built tables) :
    s.IsScoped tables :=
  h.of_steps (fun _ ht => isScoped_ofTable ht)
    fun hs _ htables hcolumns hstep => hs.step htables hcolumns hstep

/-- The column that a built expression is belongs to one of the tables. -/
theorem Expr.IsHeld.isOf {tables : Set Table} {e : Expr} (h : e.IsHeld tables) :
    ∀ c, e.column? = some c → c.IsOf tables := by
  rintro c hc
  obtain h | ⟨type, v, w, -, rfl⟩ := h
  · cases h.formed with
    | column hof =>
      cases hc
      exact hof
    | _ => cases hc
  · cases hc

theorem Expr.Built.isWellScoped {tables : Set Table} {e : Expr} (h : e.Built tables) :
    e.IsWellScoped tables :=
  h.everywhere.imp (fun _ => IsHeld.isOf) fun _ => Select.Built.isScoped

theorem Select.Built.isWellScoped {tables : Set Table} {s : Select} (h : s.Built tables) :
    s.IsWellScoped tables :=
  h.everywhere.imp (fun _ => Expr.IsHeld.isOf) fun _ => isScoped

/-! ### References in expressions and selects -/

section References

variable {tables : Set Table} {separate : Bool}

/-- A list of mentions in which every reference is resolved to the table of its column. -/
def AllSound (ms : List Mention) : Prop :=
  ∀ r, Mention.reference r ∈ ms → r.IsSound

theorem isScope_singleton {t : Table} (ht : t ∈ tables) : IsScope tables [t] :=
  ⟨List.forall_mem_singleton.2 ht, List.nodup_singleton _⟩

/-- A column of the only table in sight. -/
theorem inSight_ofTable {t : Table} {c : Column} (qualify : Bool) (hc : c.table = t.ref) :
    c.InSight [[t]] qualify :=
  ⟨⟨[t], by simp, by simp [hc]⟩, fun _ => ⟨t, rfl, hc.symm⟩⟩

/-- A table is a source of one of some scopes. -/
def IsSource (scopes : List (List Table)) (ref : TableRef) : Prop :=
  ∃ scope ∈ scopes, ref ∈ scope.map Table.ref

theorem AllSound.append {ms ns : List Mention} (hms : AllSound ms) (hns : AllSound ns) :
    AllSound (ms ++ ns) :=
  fun r hr => (List.mem_append.1 hr).elim (hms r) (hns r)

theorem AllSound.flatMap {α : Type} {items : List α} {f : α → List Mention}
    (h : ∀ a ∈ items, AllSound (f a)) : AllSound (items.flatMap f) := by
  intro r hr
  obtain ⟨a, ha, hr⟩ := List.mem_flatMap.1 hr
  exact h a ha r hr

/-- A mention of a table is no reference. -/
theorem AllSound.cons_source {t : Table} {ms : List Mention} (h : AllSound ms) :
    AllSound (.source t :: ms) :=
  fun r hr => h r (by simpa using hr)

theorem AllSound.keyView {ms : List Mention} (h : AllSound ms) (nulls? : Option NullPlacement) :
    AllSound (Piece.keyView separate nulls? ms) := by
  unfold Piece.keyView
  split
  · exact h.append h
  · exact h

theorem allSound_references (h : Consistent tables) {scopes : List (List Table)} {qualify : Bool}
    (hscopes : ∀ scope ∈ scopes, IsScope tables scope) {cs : List Column}
    (hcs : ∀ c ∈ cs, c.IsOf tables ∧ c.InSight scopes qualify) :
    AllSound (references scopes qualify cs) := by
  intro r hr
  obtain ⟨c, hc, hr⟩ := List.mem_map.1 hr
  cases hr
  exact h.isSound (hcs c hc).1 hscopes (hcs c hc).2

/-- The first tables of a scope are a scope. -/
theorem IsScope.of_append {scope later : List Table} (h : IsScope tables (scope ++ later)) :
    IsScope tables scope :=
  ⟨fun t ht => h.1 t (List.mem_append_left _ ht),
    h.2.sublist ((List.sublist_append_left scope later).map Table.ref)⟩

/-- What an expression mentions is sound where all columns that it asks for are in sight. -/
def Expr.SoundInSight (tables : Set Table) (separate : Bool) (e : Expr) : Prop :=
  ∀ scopes qualify, e.IsWellScoped tables → (∀ scope ∈ scopes, IsScope tables scope) →
    (∀ c ∈ e.columns, c.InSight scopes qualify) → AllSound (e.mentions separate scopes qualify)

/-- What a select mentions is sound where all columns that it asks for have a source around it. -/
def Select.SoundInside (tables : Set Table) (separate : Bool) (s : Select) : Prop :=
  ∀ outer, s.IsWellScoped tables → (∀ scope ∈ outer, IsScope tables scope) →
    (∀ c ∈ s.outerColumns, IsSource outer c.table) → AllSound (s.mentions separate outer)

theorem Expr.soundInSight_of_parts (h : Consistent tables) (e : Expr)
    (parts : ∀ x ∈ e.children, x.SoundInSight tables separate)
    (query : ∀ s, e.query? = some s → s.SoundInside tables separate) :
    e.SoundInSight tables separate := by
  intro scopes qualify he hscopes hsight r hr
  rw [Expr.columns_eq] at hsight
  obtain ⟨c, rfl, hmem⟩ | ⟨x, hx, hr⟩ | ⟨s, hs, hr⟩ := Expr.mem_mentions hr
  · cases hmem
    exact h.isSound (he.here c rfl) hscopes (hsight c (by simp [Expr.column?]))
  · refine parts x hx scopes qualify (he.children x hx) hscopes (fun c hc => hsight c ?_) r hr
    exact List.mem_append_left _ (List.mem_append_right _ (List.mem_flatMap.2 ⟨x, hx, hc⟩))
  · refine query s hs scopes (he.query s hs) hscopes (fun c hc => (hsight c ?_).1) r hr
    exact List.mem_append_right _ (List.mem_flatMap.2 ⟨s, by simpa using hs, hc⟩)

/-- A column of a clause that no table of the select provides is asked of the outside. -/
theorem Select.isSource_of_clause {s : Select} {outer : List (List Table)}
    (houter : ∀ c ∈ s.outerColumns, IsSource outer c.table) {e : Expr} (he : e ∈ s.clauseExprs)
    {c : Column} (hc : c ∈ e.columns) (hlocal : c.table ∉ s.localRefs) :
    IsSource outer c.table := by
  refine houter c ?_
  rw [Select.outerColumns_eq]
  refine List.mem_filter.2 ⟨List.mem_append_left _ (List.mem_flatMap.2 ⟨e, he, hc⟩), ?_⟩
  simpa using hlocal

/-- A column of a source is in sight of the clauses of a select. -/
theorem Select.inSight {s : Select} {outer : List (List Table)} {c : Column}
    (hc : c.table ∈ s.sources) (houter : c.table ∉ s.localRefs → IsSource outer c.table) :
    c.InSight (s.localTables :: outer) s.qualifies := by
  constructor
  · by_cases hlocal : c.table ∈ s.localRefs
    · exact ⟨s.localTables, by simp, s.map_ref_localTables ▸ hlocal⟩
    · obtain ⟨scope, hscope, hmem⟩ := houter hlocal
      exact ⟨scope, List.mem_cons_of_mem _ hscope, hmem⟩
  · -- Without joins and outer tables the first table is the only source.
    intro hqualify
    simp only [Select.qualifies, Bool.or_eq_false_iff, Bool.not_eq_false', List.isEmpty_iff]
      at hqualify
    obtain ⟨hjoins, hcorrelated⟩ := hqualify
    refine ⟨s.source, by simp [Select.localTables, hjoins], ?_⟩
    simpa [Select.sources, Select.localRefs, hjoins, hcorrelated, eq_comm] using hc

theorem Select.soundInside_of_clauses (h : Consistent tables) (s : Select)
    (clauses : ∀ e ∈ s.clauseExprs, e.SoundInSight tables separate) :
    s.SoundInside tables separate := by
  intro outer hs hscopes houter
  obtain ⟨hscope, hbinds, hgroups, hconditions⟩ := hs.here
  have hinner : ∀ scope ∈ s.localTables :: outer, IsScope tables scope :=
    List.forall_mem_cons.2 ⟨hscope, hscopes⟩
  have hclause : ∀ e ∈ s.clauseExprs,
      AllSound (e.mentions separate (s.localTables :: outer) s.qualifies) := fun e he =>
    clauses e he _ _ (hs.clauses e he) hinner fun c hc =>
      Select.inSight (hbinds e he c hc) (Select.isSource_of_clause houter he hc)
  obtain ⟨hprojections, -, hfilter, hhaving, horder⟩ := s.forall_clauseExprs.1 hclause
  -- The default result columns belong to the first table, which is in the innermost scope.
  have hcolumns : AllSound (references (s.localTables :: outer) s.qualifies s.source.columns) := by
    refine allSound_references h hinner fun c hc => ⟨⟨s.source, hscope.1 _ (by simp
      [Select.localTables]), hc⟩, ?_⟩
    have href := Table.table_of_mem_columns hc
    have hlocal : c.table ∈ s.localRefs := by simp [href, Select.localRefs]
    exact Select.inSight (List.mem_append_left _ hlocal) (absurd hlocal)
  have hgroup : AllSound (references (s.localTables :: outer) s.qualifies s.groupBy) := by
    refine allSound_references h hinner fun c hc => ⟨(hgroups c hc).2, ?_⟩
    refine Select.inSight (hgroups c hc).1 fun hlocal => houter c ?_
    rw [Select.outerColumns_eq]
    exact List.mem_filter.2 ⟨List.mem_append_right _ hc, by simpa using hlocal⟩
  have hjoin : AllSound (mentionsOfJoins separate outer s.qualifies [s.source] s.joins) := by
    intro r hr
    obtain ⟨pre, j, post, hjoins, e, he, hr⟩ := reference_mem_mentionsOfJoins hr
    have hclauseMem : e ∈ s.clauseExprs :=
      (s.forall_clauseExprs.1 fun _ h => h).2.1 j (by simp [hjoins]) e he
    have hvisible : s.localTables =
        (s.source :: (pre ++ [j]).map Join.table) ++ post.map Join.table := by
      simp [Select.localTables, hjoins]
    -- A condition sees the tables up to its own join, so its scope is a part of the innermost one.
    rw [hvisible] at hscope
    refine clauses e hclauseMem _ _ (hs.clauses e hclauseMem)
      (List.forall_mem_cons.2 ⟨hscope.of_append, hscopes⟩)
      (fun c hc => ⟨?_, fun hqualify => ?_⟩) r hr
    · by_cases hlocal : c.table ∈ s.localRefs
      · exact ⟨_, List.mem_cons_self .., hconditions pre j post hjoins e he c hc hlocal⟩
      · obtain ⟨scope, hmem, href⟩ := Select.isSource_of_clause houter hclauseMem hc hlocal
        exact ⟨scope, List.mem_cons_of_mem _ hmem, href⟩
    -- Where there are joins, every reference is qualified.
    · simp [Select.qualifies, hjoins] at hqualify
  rw [Select.mentions_eq]
  refine .append (.append (.append (.append (.append ?_ (.cons_source hjoin)) ?_) hgroup) ?_) ?_
  · split
    · exact hcolumns
    · refine .flatMap fun p hp => .append (hprojections p hp) ?_
      rintro r hr
      simp at hr
  · exact .flatMap hfilter
  · exact .flatMap hhaving
  · exact .flatMap fun k hk => (horder k hk).keyView k.nulls?

theorem Expr.soundInSight (h : Consistent tables) (e : Expr) : e.SoundInSight tables separate :=
  Expr.induction (P := Expr.SoundInSight tables separate)
    (Q := Select.SoundInside tables separate) (Expr.soundInSight_of_parts h)
    (Select.soundInside_of_clauses h) e

theorem Select.soundInside (h : Consistent tables) (s : Select) :
    s.SoundInside tables separate :=
  s.soundInside_of_clauses h fun e _ => e.soundInSight h

/-- A select that refers to no outer tables is sound inside any scopes. -/
theorem Select.allSound (h : Consistent tables) {s : Select} (hs : s.IsWellScoped tables)
    (hcorrelated : s.correlated = []) : AllSound (s.mentions separate []) := by
  refine s.soundInside h [] hs (List.forall_mem_nil _) fun c hc => ?_
  -- All sources are tables of the select, which therefore asks for nothing.
  have hsources : s.sources = s.localRefs := by simp [Select.sources, hcorrelated]
  rw [Select.outerColumns_eq, List.mem_filter, List.mem_append, List.mem_flatMap] at hc
  obtain ⟨hc, hlocal⟩ := hc
  have hin : c.table ∈ s.localRefs := by
    rcases hc with ⟨e, he, hc⟩ | hc
    · exact hsources ▸ hs.here.clauses e he c hc
    · exact hsources ▸ (hs.here.groups c hc).1
  simp [hin] at hlocal

end References

/-! ### Statements -/

/-- A column of some tables, bound to one of them. -/
def Column.IsBoundTo (tables : Set Table) (t : Table) (c : Column) : Prop :=
  c.IsOf tables ∧ c.table = t.ref

/-- An expression in order that asks for no columns but those of some sources. -/
def Expr.IsBoundIn (tables : Set Table) (sources : List TableRef) (e : Expr) : Prop :=
  e.IsWellScoped tables ∧ ∀ c ∈ e.columns, c.table ∈ sources

/-- The members of a compound select are in order, and it is sorted by columns. -/
def CompoundSelect.IsScoped (tables : Set Table) (c : CompoundSelect) : Prop :=
  (∀ s ∈ c.members, s.IsWellScoped tables) ∧ c.SortsByColumns

/-- The columns and values of an insert are in order; values use no columns. -/
structure Insert.IsScoped (tables : Set Table) (i : Insert) : Prop where
  table : i.table ∈ tables
  columns : ∀ c ∈ i.columns, c.IsBoundTo tables i.table
  rows : ∀ row ∈ i.rows, ∀ e ∈ row, e.IsBoundIn tables []
  returning : ∀ c ∈ i.returning, c.IsBoundTo tables i.table

/-- The columns and expressions of an update are in order. -/
structure Update.IsScoped (tables : Set Table) (u : Update) : Prop where
  table : u.table ∈ tables
  assignments : ∀ a ∈ u.assignments,
    a.1.IsBoundTo tables u.table ∧ a.2.IsBoundIn tables [u.table.ref]
  filter : ∀ e ∈ u.filter?, e.IsBoundIn tables [u.table.ref]
  returning : ∀ c ∈ u.returning, c.IsBoundTo tables u.table

/-- The columns and the condition of a delete are in order. -/
structure Delete.IsScoped (tables : Set Table) (x : Delete) : Prop where
  table : x.table ∈ tables
  condition : ∀ e ∈ x.condition?, e.IsBoundIn tables [x.table.ref]
  returning : ∀ c ∈ x.returning, c.IsBoundTo tables x.table

section Statements

variable {tables : Set Table}

theorem Expr.isBoundIn_attach {sources : List TableRef} {condition? : Option Expr} {e f : Expr}
    (h : Expr.attach condition? e = .ok f) (hf : f.Built tables)
    (hcondition : ∀ x ∈ condition?, x.IsBoundIn tables sources)
    (he : e.IsBoundIn tables sources) : f.IsBoundIn tables sources := by
  refine ⟨hf.isWellScoped, fun c hc => ?_⟩
  rw [Expr.columns_attach h, List.mem_append, List.mem_flatMap] at hc
  rcases hc with ⟨x, hx, hc⟩ | hc
  · exact (hcondition x (by simpa using hx)).2 c hc
  · exact he.2 c hc

theorem Column.isWellScoped_of_accept {c : Column} {clause : AssignmentClause}
    {sources : List TableRef} {operand : Operand} {e : Expr}
    (h : c.accept clause sources operand = .ok e)
    (hoperand : ∀ x, operand.expr? = some x → x.Built tables) : e.IsWellScoped tables :=
  (Column.everywhere_of_accept h hoperand).imp (fun _ => Expr.IsHeld.isOf)
    fun _ => Select.Built.isScoped

theorem CompoundSelect.Built.isScoped {c : CompoundSelect} (h : c.Built tables) :
    c.IsScoped tables := by
  induction h with
  | ofSelect hs h =>
    obtain rfl := ofSelect_eq_ok h
    exact ⟨List.forall_mem_singleton.2 hs.isWellScoped, List.forall_mem_nil _⟩
  | combine hc hmember h ih =>
    obtain rfl := combine_eq_ok h
    refine ⟨?_, ih.2⟩
    have hmembers := List.forall_mem_append.2
      ⟨ih.1, List.forall_mem_singleton.2 hmember.isWellScoped⟩
    simpa [members] using hmembers
  | sort hc hk h ih =>
    obtain ⟨⟨column, hcolumn, -⟩, rfl⟩ := sort_eq_ok h
    exact ⟨ih.1, List.forall_mem_append.2 ⟨ih.2, List.forall_mem_singleton.2 ⟨column, hcolumn⟩⟩⟩
  | limit n hc ih => exact ih
  | offset n hc ih => exact ih

theorem Insert.Built.isScoped {i : Insert} (h : i.Built tables) : i.IsScoped tables := by
  induction h with
  | ofTable ht =>
    exact ⟨ht, List.forall_mem_nil _, List.forall_mem_nil _, List.forall_mem_nil _⟩
  | @addRow i i' r hi hcolumns hoperands h ih =>
    obtain ⟨values, hvalues, haligned⟩ := addRow_eq_ok h
    have hencoded := Row.encode_eq_ok hvalues
    have hvalue : ∀ p ∈ values, p.2.IsBoundIn tables [] := fun p hp => by
      obtain ⟨-, operand, hmem, haccept⟩ := hencoded p hp
      exact ⟨Column.isWellScoped_of_accept haccept (hoperands _ hmem),
        by simp [Column.columns_of_accept haccept]⟩
    obtain ⟨-, rfl⟩ | ⟨-, row, hrow, rfl⟩ := haligned
    · refine ⟨ih.table, List.forall_mem_map.2 fun p hp => ?_, ?_, ih.returning⟩
      · obtain ⟨htable, operand, hmem, -⟩ := hencoded p hp
        exact ⟨hcolumns _ hmem, htable⟩
      · exact List.forall_mem_append.2
          ⟨ih.rows, List.forall_mem_singleton.2 (List.forall_mem_map.2 hvalue)⟩
    · refine ⟨ih.table, ih.columns, ?_, ih.returning⟩
      refine List.forall_mem_append.2 ⟨ih.rows, List.forall_mem_singleton.2 fun e he => ?_⟩
      obtain ⟨p, hp, rfl⟩ := mem_of_align hrow e he
      exact hvalue p hp
  | returningColumns hi hcolumns h ih =>
    obtain ⟨htable, rfl⟩ := returningColumns_eq_ok h
    exact ⟨ih.table, ih.columns, ih.rows, fun c hc => ⟨hcolumns c hc, htable c hc⟩⟩

theorem Update.Built.isScoped {u : Update} (h : u.Built tables) : u.IsScoped tables := by
  induction h with
  | ofTable ht => exact ⟨ht, List.forall_mem_nil _, nofun, List.forall_mem_nil _⟩
  | set hu hc hoperand h ih =>
    obtain ⟨htable, e, haccept, rfl⟩ := set_eq_ok h
    have he : e.IsBoundIn tables [_] :=
      ⟨Column.isWellScoped_of_accept haccept hoperand, (Column.accept_eq_ok haccept).2.2.1⟩
    refine ⟨ih.table, fun a ha => ?_, ih.filter, ih.returning⟩
    rcases mem_put ha with ha | ⟨hvalue, hcolumn | ⟨-, f, hf⟩⟩
    · exact ih.assignments a ha
    · subst hcolumn
      exact ⟨⟨hc, htable⟩, hvalue ▸ he⟩
    · exact ⟨(ih.assignments _ hf).1, hvalue ▸ he⟩
  | filterBy hu he h ih =>
    obtain ⟨-, hcolumns, filter, hattach, rfl⟩ := filterBy_eq_ok h
    refine ⟨ih.table, ih.assignments, ?_, ih.returning⟩
    rintro _ ⟨⟩
    exact Expr.isBoundIn_attach hattach (.attach hattach hu.filter he) ih.filter
      ⟨he.isWellScoped, fun x hx => List.mem_singleton.2 (hcolumns x hx)⟩
  | returningColumns hu hcolumns h ih =>
    obtain ⟨htable, rfl⟩ := returningColumns_eq_ok h
    exact ⟨ih.table, ih.assignments, ih.filter, fun c hc => ⟨hcolumns c hc, htable c hc⟩⟩

theorem Delete.Built.isScoped {x : Delete} (h : x.Built tables) : x.IsScoped tables := by
  induction h with
  | ofTable ht => exact ⟨ht, nofun, List.forall_mem_nil _⟩
  | filterBy hx he h ih =>
    obtain ⟨-, hcolumns, condition, hattach, rfl⟩ := filterBy_eq_ok (step?_filterBy_eq_ok h)
    refine ⟨ih.table, ?_, ih.returning⟩
    rintro _ ⟨⟩
    exact Expr.isBoundIn_attach hattach (.attach hattach hx.condition he) ih.condition
      ⟨he.isWellScoped, fun c hc => List.mem_singleton.2 (hcolumns c hc)⟩
  | allRows hx h ih =>
    obtain rfl := step?_allRows_eq_ok h
    exact ⟨ih.table, nofun, ih.returning⟩
  | returningColumns hx hcolumns h ih =>
    obtain ⟨htable, rfl⟩ := step?_returningColumns_eq_ok h
    exact ⟨ih.table, ih.condition, fun c hc => ⟨hcolumns c hc, htable c hc⟩⟩

variable {separate : Bool}

/-- A column of the only table in sight is resolved to that table. -/
theorem allSound_ofTable (h : Consistent tables) {t : Table} (ht : t ∈ tables) {cs : List Column}
    (hcs : ∀ c ∈ cs, c.IsBoundTo tables t) : AllSound (references [[t]] false cs) :=
  allSound_references h (List.forall_mem_singleton.2 (isScope_singleton ht)) fun c hc =>
    ⟨(hcs c hc).1, inSight_ofTable false (hcs c hc).2⟩

theorem CompoundSelect.IsScoped.allSound (h : Consistent tables) {c : CompoundSelect}
    (hc : c.IsScoped tables) (hmembers : ∀ s ∈ c.members, s.correlated = []) :
    AllSound (c.mentions separate) := by
  refine .append (.flatMap fun s hs => s.allSound h (hc.1 s hs) (hmembers s hs)) ?_
  refine .flatMap fun k _ => .keyView (fun r hr => ?_) k.nulls?
  simp at hr

theorem Insert.IsScoped.allSound (h : Consistent tables) {i : Insert} (hi : i.IsScoped tables) :
    AllSound (i.mentions separate) := by
  have hrows : ∀ row ∈ i.rows, ∀ e ∈ row, AllSound (e.mentions separate [] false) := by
    intro row hrow e he
    obtain ⟨hscoped, hcolumns⟩ := hi.rows row hrow e he
    exact e.soundInSight h [] false hscoped (List.forall_mem_nil _) fun c hc =>
      absurd (hcolumns c hc) List.not_mem_nil
  have hbody := ((allSound_ofTable h hi.table hi.columns).append
    (.flatMap fun row hrow => .flatMap (hrows row hrow))).append
    (allSound_ofTable h hi.table hi.returning)
  exact fun r hr => hbody r (by simpa [Insert.mentions] using hr)

/-- An expression of a statement on one table. -/
theorem Expr.IsBoundIn.allSound (h : Consistent tables) {t : Table} (ht : t ∈ tables) {e : Expr}
    (he : e.IsBoundIn tables [t.ref]) : AllSound (e.mentions separate [[t]] false) :=
  e.soundInSight h _ _ he.1 (List.forall_mem_singleton.2 (isScope_singleton ht)) fun c hc =>
    inSight_ofTable false (List.mem_singleton.1 (he.2 c hc))

theorem Update.IsScoped.allSound (h : Consistent tables) {u : Update} (hu : u.IsScoped tables) :
    AllSound (u.mentions separate) := by
  refine .append (.append (.cons_source (.flatMap fun a ha => .append ?_ ?_)) ?_)
    (allSound_ofTable h hu.table hu.returning)
  · exact allSound_ofTable h hu.table (List.forall_mem_singleton.2 (hu.assignments a ha).1)
  · exact (hu.assignments a ha).2.allSound h hu.table
  · exact .flatMap fun e he => (hu.filter e (by simpa using he)).allSound h hu.table

theorem Delete.IsScoped.allSound (h : Consistent tables) {x : Delete} (hx : x.IsScoped tables) :
    AllSound (x.mentions separate) :=
  .append (.cons_source (.flatMap fun e he => (hx.condition e (by simpa using he)).allSound h
    hx.table)) (allSound_ofTable h hx.table hx.returning)

/-- The selects of a statement that no other select holds refer to no outer tables. -/
def Statement.IsOutermost : Statement → Prop
  | .select s => s.correlated = []
  | .compound c => ∀ s ∈ c.members, s.correlated = []
  | .insert _ _ | .update _ _ | .delete _ _ => True

/-- **Every reference of a built statement is resolved to the table that its column is bound to.**
The references are all that the statement writes: the names in its layout, and where the spellings
of the dialect are plain the names that the lexer finds in its text, are those of its mentions. -/
theorem Statement.references_isSound (h : Consistent tables) {s : Statement} (hs : s.Built tables)
    (houter : s.IsOutermost) (d : Dialect) :
    (∀ r, .reference r ∈ s.mentions d → r.IsSound) ∧
      Piece.identifiers (s.pieces d) = (s.mentions d).flatMap Mention.names ∧
      (d.IsPlain → (lex d.identifierQuote (s.compile d).sql).filterMap Token.identifier? =
        (s.mentions d).flatMap Mention.names) := by
  have hnames : Piece.identifiers (s.pieces d) = (s.mentions d).flatMap Mention.names := by
    cases hs with
    | select hs => exact Select.identifiers_pieces _ []
    | compound hc => exact CompoundSelect.identifiers_pieces _ hc.isScoped.2
    | insert complete hi => exact Insert.identifiers_pieces _
    | update complete hu => exact Update.identifiers_pieces _
    | delete complete hx => exact Delete.identifiers_pieces _
  refine ⟨?_, hnames, fun hd => ?_⟩
  · cases hs with
    | select hs => exact Select.allSound h hs.isWellScoped houter
    | compound hc => exact hc.isScoped.allSound h houter
    | insert complete hi => exact hi.isScoped.allSound h
    | update complete hu => exact hu.isScoped.allSound h
    | delete complete hx => exact hx.isScoped.allSound h
  · rw [Statement.lex_compile hd, Piece.identifiers_tokens hd (s.tidy_pieces hd), hnames]

end Statements

/-! ### Goods that are offered for less -/

/-- A table of offers, whose column has the name of the column of the goods. -/
def offers : Table :=
  priced ⟨some "shop", "offers", some "o"⟩

/-- The price of an offer. -/
def offeredPrice : Column :=
  ⟨offers.ref, ⟨"price", .integer, true, none⟩⟩

/-- An offer costs less than the goods. -/
def offeredForLess : Expr :=
  .binary (.column offeredPrice) (.compare .lt) (.column price)

/-- The offers that cost less than goods of an enclosing statement. -/
def lowerOffers : Select :=
  { Select.ofTable offers with
    correlated := [goods]
    filter? := some offeredForLess }

/-- The goods for which there is such an offer. -/
def dearGoods : Select :=
  { Select.ofTable goods with filter? := some (.existence lowerOffers false) }

theorem consistent_goods_offers : Consistent {goods, offers} where
  ref_eq := by
    rintro t (rfl | rfl) u (rfl | rfl) h
    · rfl
    · exact absurd h (by decide)
    · exact absurd h (by decide)
    · rfl
  decls_eq := by
    rintro t (rfl | rfl) u (rfl | rfl) -
    all_goals rfl

theorem built_offeredForLess : offeredForLess.Built {goods, offers} := by
  have hoperate : (Expr.column offeredPrice).operate (.compare .lt) (.expr (.column price)) =
      .ok offeredForLess := rfl
  refine .operate (.column ⟨offers, .inr rfl, .head _⟩) ?_ hoperate
  rintro _ ⟨⟩
  exact .column ⟨goods, .inl rfl, .head _⟩

theorem built_dearGoods : (Statement.select dearGoods).Built {goods, offers} := by
  have hgoods : goods ∈ ({goods, offers} : Set Table) := .inl rfl
  have hoffers : offers ∈ ({goods, offers} : Set Table) := .inr rfl
  have hcorrelate : (Select.ofTable offers).step (.correlate goods) =
      .ok ((Select.ofTable offers).correlate goods) := rfl
  have hfilter : ((Select.ofTable offers).correlate goods).step
      (.filterBy offeredForLess) = .ok lowerOffers := rfl
  have hexists : (Select.ofTable goods).step (.filterBy (.existence lowerOffers false)) =
      .ok dearGoods := rfl
  have hcorrelated : ((Select.ofTable offers).correlate goods).Built
      {goods, offers} := by
    refine .step (.ofTable hoffers) ?_ ?_ ?_ hcorrelate
    · exact List.forall_mem_nil _
    · exact List.forall_mem_singleton.2 hgoods
    · exact List.forall_mem_nil _
  have hlower : lowerOffers.Built {goods, offers} := by
    refine .step hcorrelated ?_ ?_ ?_ hfilter
    · exact List.forall_mem_singleton.2 built_offeredForLess
    · exact List.forall_mem_nil _
    · exact List.forall_mem_nil _
  refine .select (.step (.ofTable hgoods) ?_ ?_ ?_ hexists)
  · exact List.forall_mem_singleton.2 (.existence false hlower)
  · exact List.forall_mem_nil _
  · exact List.forall_mem_nil _

theorem references_isSound_dearGoods :
    Consistent {goods, offers} ∧
      (Statement.select dearGoods).Built {goods, offers} ∧
      (Statement.select dearGoods).IsOutermost ∧
      ∀ r, .reference r ∈ (Statement.select dearGoods).mentions .postgres → r.IsSound :=
  ⟨consistent_goods_offers, built_dearGoods, rfl,
    (Statement.references_isSound consistent_goods_offers built_dearGoods rfl .postgres).1⟩

end TypedSql
