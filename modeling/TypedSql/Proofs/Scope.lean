import Mathlib.Data.List.Nodup
import Mathlib.Data.Set.Basic
import TypedSql.Table

/-!
# Scopes

A reference to a column is written as a name with or without a qualifier. What it means depends on
the scopes around it, each a list of tables: the innermost scope that has an answer decides, and it
must not have two. `resolve` is this rule. `Consistent.isSound` says that it finds the table
that a column is bound to, for tables that their qualifiers tell apart.
-/

namespace TypedSql

/-- Tables with different references have different qualifiers, and tables with one reference have
the same columns. -/
structure Consistent (tables : Set Table) : Prop where
  ref_eq : ∀ t ∈ tables, ∀ u ∈ tables, t.ref.qualifier = u.ref.qualifier → t.ref = u.ref
  decls_eq : ∀ t ∈ tables, ∀ u ∈ tables, t.ref = u.ref → t.decls = u.decls

/-- A column of one of some tables. -/
def Column.IsOf (tables : Set Table) (c : Column) : Prop :=
  ∃ t ∈ tables, c ∈ t.columns

/-- A table has a column of a name. -/
def Table.hasColumn (t : Table) (name : String) : Bool :=
  t.columns.any fun c => c.name == name

/-- A table may be what a name, with its qualifier if it has one, refers to. -/
def Table.answers (qualifier? : Option String) (name : String) (t : Table) : Bool :=
  match qualifier? with
  | some qualifier => t.ref.qualifier == qualifier
  | none => t.hasColumn name

/-- The table that a name refers to in some scopes, from the innermost outwards. -/
def resolve (qualifier? : Option String) (name : String) : List (List Table) → Option Table
  | [] => none
  | scope :: outer =>
    match scope.filter (Table.answers qualifier? name) with
    | [] => resolve qualifier? name outer
    | [t] => if t.hasColumn name then some t else none
    | _ => none

/-- A reference to a column, and the scopes in which it is written. -/
structure Reference where
  column : Column
  qualified : Bool
  scopes : List (List Table)

namespace Reference

/-- The qualifier that is written. -/
def qualifier? (r : Reference) : Option String :=
  if r.qualified then some r.column.qualifier else none

/-- The reference is resolved to the table that its column is bound to, and if it is written without
a qualifier, that is the only table of the innermost scope. -/
def IsSound (r : Reference) : Prop :=
  ∃ t, resolve r.qualifier? r.column.name r.scopes = some t ∧ t.ref = r.column.table ∧
    r.column ∈ t.columns ∧ (r.qualified = false → r.scopes.head? = some [t])

end Reference

/-- A scope ranges over some tables, and over each only once. -/
def IsScope (tables : Set Table) (scope : List Table) : Prop :=
  (∀ t ∈ scope, t ∈ tables) ∧ (scope.map Table.ref).Nodup

/-- A column is in sight of some scopes; without a qualifier, it is in sight of the innermost one,
which has no other table. -/
def Column.InSight (scopes : List (List Table)) (qualified : Bool) (c : Column) : Prop :=
  (∃ scope ∈ scopes, c.table ∈ scope.map Table.ref) ∧
    (qualified = false → ∃ t, scopes.head? = some [t] ∧ t.ref = c.table)

section Resolution

variable {tables : Set Table} {c : Column}

/-- Among tables without repetition, those with a reference are one. -/
theorem filter_ref_eq {scope : List Table} (hscope : (scope.map Table.ref).Nodup) {t : Table}
    (ht : t ∈ scope) : (scope.filter fun u => u.ref = t.ref) = [t] := by
  induction scope with
  | nil => cases ht
  | cons u scope ih =>
    rw [List.map_cons, List.nodup_cons] at hscope
    obtain ⟨hu, hscope⟩ := hscope
    rcases List.mem_cons.1 ht with rfl | ht
    · have hnone : (scope.filter fun u => u.ref = t.ref) = [] := by
        refine List.filter_eq_nil_iff.2 fun v hv h => hu ?_
        exact List.mem_map.2 ⟨v, hv, by simpa using h⟩
      simp [hnone]
    · have hne : u.ref ≠ t.ref := fun h => hu (h ▸ List.mem_map_of_mem ht)
      rw [List.filter_cons_of_neg (by simpa using hne), ih hscope ht]

/-- A table of the reference that a column is bound to has that column. -/
theorem Consistent.mem_columns (h : Consistent tables) (hc : c.IsOf tables) {t : Table}
    (ht : t ∈ tables) (href : t.ref = c.table) : c ∈ t.columns := by
  obtain ⟨u, hu, hc⟩ := hc
  have hrefs : t.ref = u.ref := href.trans (Table.table_of_mem_columns hc)
  rwa [Table.columns, hrefs, h.decls_eq t ht u hu hrefs]

/-- A table has one column of a name. -/
theorem Table.eq_of_mem_columns {t : Table} {d : Column} (hc : c ∈ t.columns) (hd : d ∈ t.columns)
    (hname : c.name = d.name) : c = d := by
  obtain ⟨a, ha, rfl⟩ := List.mem_map.1 hc
  obtain ⟨b, hb, rfl⟩ := List.mem_map.1 hd
  rw [List.inj_on_of_nodup_map t.nodup_names ha hb hname]

theorem hasColumn_of_mem {t : Table} (h : c ∈ t.columns) : t.hasColumn c.name = true :=
  List.any_eq_true.2 ⟨c, h, by simp⟩

/-- The tables with the qualifier of a column are those that it is bound to. -/
theorem Consistent.filter_answers (h : Consistent tables) (hc : c.IsOf tables)
    {scope : List Table} (hscope : ∀ t ∈ scope, t ∈ tables) :
    scope.filter (Table.answers (some c.qualifier) c.name) =
      scope.filter fun t => t.ref = c.table := by
  obtain ⟨u, hu, hcu⟩ := hc
  have htable := Table.table_of_mem_columns hcu
  refine List.filter_congr fun t ht => ?_
  rw [Table.answers, Column.qualifier, htable, Bool.eq_iff_iff, beq_iff_eq, decide_eq_true_iff]
  exact ⟨h.ref_eq t (hscope t ht) u hu, congrArg TableRef.qualifier⟩

/-- A qualified reference finds the table that its column is bound to. -/
theorem Consistent.resolve_qualified (h : Consistent tables) (hc : c.IsOf tables)
    {scopes : List (List Table)} (hscopes : ∀ scope ∈ scopes, IsScope tables scope)
    (hsight : ∃ scope ∈ scopes, c.table ∈ scope.map Table.ref) :
    ∃ t ∈ tables, t.ref = c.table ∧ resolve (some c.qualifier) c.name scopes = some t := by
  induction scopes with
  | nil =>
    obtain ⟨_, hmem, _⟩ := hsight
    cases hmem
  | cons scope outer ih =>
    obtain ⟨htables, hnodup⟩ := hscopes scope (by simp)
    rw [resolve, h.filter_answers hc htables]
    by_cases hmem : c.table ∈ scope.map Table.ref
    · -- The innermost scope with a table of the qualifier decides.
      obtain ⟨t, ht, href⟩ := List.mem_map.1 hmem
      have hcolumn := hasColumn_of_mem (h.mem_columns hc (htables t ht) href)
      refine ⟨t, htables t ht, href, ?_⟩
      simp [← href, filter_ref_eq hnodup ht, hcolumn]
    -- No table of this scope answers to the qualifier, so the search goes on outside.
    · have hnone : (scope.filter fun t => t.ref = c.table) = [] := by
        refine List.filter_eq_nil_iff.2 fun t ht href => hmem ?_
        exact List.mem_map.2 ⟨t, ht, by simpa using href⟩
      rw [hnone]
      refine ih (fun s hs => hscopes s (List.mem_cons_of_mem _ hs)) ?_
      obtain ⟨s, hs, hcs⟩ := hsight
      rcases List.mem_cons.1 hs with rfl | hs
      · exact absurd hcs hmem
      · exact ⟨s, hs, hcs⟩

/-- **A reference to a column in sight is resolved to the table that the column is bound to.** -/
theorem Consistent.isSound (h : Consistent tables) (hc : c.IsOf tables) {qualified : Bool}
    {scopes : List (List Table)} (hscopes : ∀ scope ∈ scopes, IsScope tables scope)
    (hsight : c.InSight scopes qualified) : Reference.IsSound ⟨c, qualified, scopes⟩ := by
  obtain ⟨hsome, hsingle⟩ := hsight
  cases qualified with
  | true =>
    obtain ⟨t, ht, href, hresolve⟩ := h.resolve_qualified hc hscopes hsome
    exact ⟨t, hresolve, href, h.mem_columns hc ht href, nofun⟩
  | false =>
    obtain ⟨t, hhead, href⟩ := hsingle rfl
    obtain ⟨outer, rfl⟩ : ∃ outer, scopes = [t] :: outer := by
      cases scopes with
      | nil => cases hhead
      | cons scope outer => exact ⟨outer, by rw [Option.some.inj hhead]⟩
    have ht : t ∈ tables := (hscopes [t] (by simp)).1 t (by simp)
    have hcolumn := h.mem_columns hc ht href
    refine ⟨t, ?_, href, hcolumn, fun _ => rfl⟩
    simp [resolve, Reference.qualifier?, Table.answers, hasColumn_of_mem hcolumn]

end Resolution

end TypedSql
