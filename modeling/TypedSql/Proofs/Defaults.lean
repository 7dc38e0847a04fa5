import TypedSql.Proofs.Declarations
import TypedSql.Proofs.Rows

/-!
# Rows filled with defaults

`Row.withDefaults` goes through the columns of a table and gives each its default, unless it
declares none or the row has a value for it. The columns of a table are different, so a default that
is given to one of them changes nothing for the others, and what is added can be read off the row
before (`Row.values_withDefaults`).

A declared table has the defaults of its declaration as their codec returned them, and NULL only
where a column may be NULL. These are what a row is filled with, under the name of the table and
under each alias (`Row.mem_withDefaults_iff_of_declare`); so a row that is accepted stays so when it
is filled.
-/

namespace TypedSql

namespace Row

/-- What a column is given as a default, if it declares one and the row has no value for it. -/
def missing? (r : Row) (c : Column) : Option (Column × Operand) :=
  match c.decl.default? with
  | some v => if r.assigns c then none else some (c, .value v)
  | none => none

/-- A row that gives values that fit a table to different columns, maybe to none. -/
structure IsSound (t : Table) (r : Row) : Prop where
  nodup_names : r.names.Nodup
  fits : ∀ p ∈ r.values, p.1.Fits t p.2

section Filling

variable {t : Table} {r : Row} {c d : Column} {p : Column × Operand} {v : Value}

theorem missing?_eq_some_iff : r.missing? c = some p ↔
    ∃ v, c.decl.default? = some v ∧ r.assigns c = false ∧ p = (c, .value v) := by
  unfold missing?
  cases c.decl.default? with
  | none => simp
  | some v => cases r.assigns c <;> simp [eq_comm]

theorem missing?_eq_none_iff :
    r.missing? c = none ↔ (c.decl.default?.isSome = true → r.assigns c = true) := by
  unfold missing?
  cases c.decl.default? with
  | none => simp
  | some v => cases r.assigns c <;> simp

theorem values_setDefault (r : Row) (c : Column) :
    (r.setDefault c).values = r.values ++ (r.missing? c).toList := by
  unfold setDefault missing?
  cases c.decl.default? with
  | none => simp
  | some v => cases r.assigns c <;> simp [set]

theorem assigns_eq_true_iff : r.assigns c = true ↔ ∃ p ∈ r.values, p.1.sameAs c = true :=
  List.any_eq_true

/-- A default that is given to a column changes nothing for a column of another name. -/
theorem missing?_setDefault (hname : c.name ≠ d.name) :
    (r.setDefault c).missing? d = r.missing? d := by
  have hassigns : (r.setDefault c).assigns d = r.assigns d := by
    have hnew : ((r.missing? c).toList.any fun p => p.1.sameAs d) = false := by
      refine List.any_eq_false.2 fun p hp hsame => hname ?_
      obtain ⟨v, -, -, rfl⟩ := missing?_eq_some_iff.1 (Option.mem_toList.1 hp)
      exact ((Column.sameAs_iff c d).1 hsame).1
    rw [assigns, values_setDefault, List.any_append, hnew, Bool.or_false, assigns]
  rw [missing?, missing?, hassigns]

theorem values_foldl_setDefault {columns : List Column}
    (hnodup : (columns.map Column.name).Nodup) :
    (columns.foldl setDefault r).values = r.values ++ columns.filterMap r.missing? := by
  induction columns generalizing r with
  | nil => simp
  | cons c columns ih =>
    obtain ⟨hnew, hnodup⟩ := List.nodup_cons.1 hnodup
    have hlater : columns.filterMap (r.setDefault c).missing? = columns.filterMap r.missing? :=
      List.filterMap_congr fun d hd => missing?_setDefault fun hname =>
        hnew (hname ▸ List.mem_map_of_mem hd)
    rw [List.foldl_cons, ih hnodup, hlater, values_setDefault, List.filterMap_cons]
    cases r.missing? c <;> simp

theorem nodup_columns (t : Table) : (t.columns.map Column.name).Nodup := by
  rw [Table.columns, List.map_map]
  exact t.nodup_names

/-- **A filled row** has its values, and then the defaults that it has been missing. -/
theorem values_withDefaults (r : Row) (t : Table) :
    (r.withDefaults t).values = r.values ++ t.columns.filterMap r.missing? :=
  values_foldl_setDefault (nodup_columns t)

/-- A filled row gives a value to each column with a default. -/
theorem assigns_withDefaults (hc : c ∈ t.columns) (hdefault : c.decl.default?.isSome = true) :
    (r.withDefaults t).assigns c = true := by
  rw [assigns_eq_true_iff, values_withDefaults]
  cases hassigns : r.assigns c with
  | true =>
    obtain ⟨p, hp, hsame⟩ := assigns_eq_true_iff.1 hassigns
    exact ⟨p, List.mem_append_left _ hp, hsame⟩
  | false =>
    obtain ⟨v, hv⟩ := Option.isSome_iff_exists.1 hdefault
    have hmissing := missing?_eq_some_iff.2 ⟨v, hv, hassigns, rfl⟩
    exact ⟨_, List.mem_append_right _ (List.mem_filterMap.2 ⟨c, hc, hmissing⟩), by simp⟩

/-- A filled row misses nothing, so it stays as it is when it is filled again. -/
theorem withDefaults_withDefaults (r : Row) (t : Table) :
    (r.withDefaults t).withDefaults t = r.withDefaults t := by
  have hnothing : t.columns.filterMap (r.withDefaults t).missing? = [] :=
    List.filterMap_eq_nil_iff.2 fun c hc => missing?_eq_none_iff.2 (assigns_withDefaults hc)
  have hvalues := values_withDefaults (r.withDefaults t) t
  rw [hnothing, List.append_nil] at hvalues
  exact congrArg Row.mk hvalues

section Declared

variable {schema? : Option String} {name : String} {decls : List ColumnDecl}

theorem mem_withDefaults_iff (ht : t.DeclaredBy decls) :
    p ∈ (r.withDefaults t).values ↔ p ∈ r.values ∨
      p.1.table = t.ref ∧ r.assigns p.1 = false ∧ ∃ d ∈ decls, d.KeptAs p.1.decl ∧
        ∃ v w, d.default? = some v ∧ d.type.encode v = .ok w ∧ p.2 = .value w := by
  rw [values_withDefaults, List.mem_append, List.mem_filterMap]
  refine or_congr_right ⟨?_, ?_⟩
  · rintro ⟨c, hc, hp⟩
    obtain ⟨w, hdefault, hassigns, rfl⟩ := missing?_eq_some_iff.1 hp
    obtain ⟨htable, d, hd, hkept⟩ := ht.mem_columns_iff.1 hc
    obtain ⟨v, hv, hw⟩ := hkept.default?_eq_some_iff.1 hdefault
    exact ⟨htable, hassigns, d, hd, hkept, v, w, hv, hw, rfl⟩
  · rintro ⟨htable, hassigns, d, hd, hkept, v, w, hv, hw, hp⟩
    have hdefault := hkept.default?_eq_some_iff.2 ⟨v, hv, hw⟩
    exact ⟨p.1, ht.mem_columns_iff.2 ⟨htable, d, hd, hkept⟩,
      missing?_eq_some_iff.2 ⟨w, hdefault, hassigns, Prod.ext rfl hp⟩⟩

/-- **Rows are filled with the declared defaults.** Beside the values that it had, a row that is
filled for a declared table or for an alias of one gives each column without a value the default
that the column was declared with, as its codec returns it, and gives nothing else. -/
theorem mem_withDefaults_iff_of_declare (hdeclare : Table.declare schema? name decls = .ok t)
    {u : Table} (hu : u = t ∨ ∃ newName, u = t.aliased newName) :
    p ∈ (r.withDefaults u).values ↔ p ∈ r.values ∨
      p.1.table = u.ref ∧ r.assigns p.1 = false ∧ ∃ d ∈ decls, d.KeptAs p.1.decl ∧
        ∃ v w, d.default? = some v ∧ d.type.encode v = .ok w ∧ p.2 = .value w := by
  have ht := Table.declaredBy_of_declare hdeclare
  obtain rfl | ⟨newName, rfl⟩ := hu
  · exact mem_withDefaults_iff ht
  · exact mem_withDefaults_iff (ht.aliased newName)

end Declared

/-- The default of a column of a table fits the table. -/
theorem fits_default (hc : c ∈ t.columns) (hv : c.decl.default? = some v) :
    c.Fits t (.value v) := by
  have htable := Table.table_of_mem_columns hc
  obtain ⟨d, hd, rfl⟩ := List.mem_map.1 hc
  obtain ⟨hnull, hencode⟩ := t.hasSoundDefault d hd v hv
  refine ⟨htable, fun h => hnull ((Value.isNull_iff v).1 h), ?_, ?_, ?_⟩
  · rintro _ ⟨⟩
    exact ⟨v, hencode⟩
  · rintro _ ⟨⟩
  · rintro _ ⟨⟩

/-- Each column misses at most its own default. -/
theorem sublist_names_missing (r : Row) (columns : List Column) :
    ((columns.filterMap r.missing?).map fun p => p.1.name).Sublist (columns.map Column.name) := by
  induction columns with
  | nil => exact .slnil
  | cons c columns ih =>
    rw [List.filterMap_cons, List.map_cons]
    split
    · exact .cons _ ih
    · rename_i p hp
      obtain ⟨v, -, -, rfl⟩ := missing?_eq_some_iff.1 hp
      exact .cons_cons _ ih

/-- **A sound row stays sound when it is filled.** -/
theorem IsSound.withDefaults (h : r.IsSound t) : (r.withDefaults t).IsSound t := by
  have hmissing : ∀ p ∈ t.columns.filterMap r.missing?,
      ∃ c ∈ t.columns, ∃ v, c.decl.default? = some v ∧ r.assigns c = false ∧ p = (c, .value v) := by
    intro p hp
    obtain ⟨c, hc, hp⟩ := List.mem_filterMap.1 hp
    exact ⟨c, hc, missing?_eq_some_iff.1 hp⟩
  constructor
  · have hadded := (nodup_columns t).sublist (sublist_names_missing r t.columns)
    rw [names, values_withDefaults, List.map_append, List.nodup_append]
    refine ⟨h.nodup_names, hadded, ?_⟩
    -- A value for a column of the same name would be one for the same column.
    rintro _ hold _ hnew rfl
    obtain ⟨p, hp, hname⟩ := List.mem_map.1 hnew
    obtain ⟨c, hc, v, -, hunassigned, rfl⟩ := hmissing p hp
    obtain ⟨q, hq, hname'⟩ := List.mem_map.1 hold
    have hsame : q.1.sameAs c = true := (Column.sameAs_iff q.1 c).2
      ⟨hname'.trans hname.symm, (h.fits q hq).table_eq.trans (Table.table_of_mem_columns hc).symm⟩
    rw [assigns_eq_true_iff.2 ⟨q, hq, hsame⟩] at hunassigned
    cases hunassigned
  · rw [values_withDefaults]
    refine List.forall_mem_append.2 ⟨h.fits, fun p hp => ?_⟩
    obtain ⟨c, hc, v, hv, -, rfl⟩ := hmissing p hp
    exact fits_default hc hv

theorem exists_addRow_ofTable_iff :
    (∃ i, (Insert.ofTable t).addRow r = .ok i) ↔ r.values ≠ [] ∧ r.IsSound t := by
  simp only [Insert.addRow_ofTable_eq_ok_iff]
  rw [exists_comm]
  simp only [exists_and_left, exists_eq, and_true, exists_encode_iff]
  exact and_congr_right fun _ => ⟨fun h => ⟨h.1, h.2⟩, fun h => ⟨h.1, h.2⟩⟩

/-- A sound row that gives a column a value gives it no other. -/
theorem IsSound.exists_filter_eq (h : r.IsSound t) (hassigns : r.assigns c = true) :
    ∃ p, (r.values.filter fun p => p.1.sameAs c) = [p] := by
  obtain ⟨p, hp, hsame⟩ := assigns_eq_true_iff.1 hassigns
  have hmem : p ∈ r.values.filter fun p => p.1.sameAs c := List.mem_filter.2 ⟨hp, hsame⟩
  have hpos := List.length_pos_of_mem hmem
  have hle := length_filter_le h.nodup_names c
  exact List.length_eq_one_iff.1 (by omega)

/-- **Declared defaults never break an insert.** A row that a table takes is also taken after it was
filled with the defaults of the table, and then it gives a value to each column with a default once.
The values that it had come first, as they were; what follows are the defaults of the columns that
had no value. Filling a row twice is filling it once. If some column has a default, the row without
values is taken when it is filled. -/
theorem accepts_withDefaults (t : Table) :
    (∀ (r : Row) (i : Insert), (Insert.ofTable t).addRow r = .ok i →
      (∃ i', (Insert.ofTable t).addRow (r.withDefaults t) = .ok i') ∧
        ∀ c ∈ t.columns, c.decl.default?.isSome = true →
          ∃ p, ((r.withDefaults t).values.filter fun p => p.1.sameAs c) = [p]) ∧
      (∀ r : Row, (r.withDefaults t).values = r.values ++ t.columns.filterMap r.missing?) ∧
      (∀ r : Row, (r.withDefaults t).withDefaults t = r.withDefaults t) ∧
      ((∃ c ∈ t.columns, c.decl.default?.isSome = true) →
        ∃ i, (Insert.ofTable t).addRow (Row.empty.withDefaults t) = .ok i) := by
  refine ⟨fun r i h => ?_, fun r => values_withDefaults r t, fun r =>
    withDefaults_withDefaults r t, fun ⟨c, hc, hdefault⟩ => ?_⟩
  · obtain ⟨hne, hsound⟩ := exists_addRow_ofTable_iff.1 ⟨i, h⟩
    refine ⟨exists_addRow_ofTable_iff.2 ⟨?_, hsound.withDefaults⟩, fun c hc hdefault =>
      hsound.withDefaults.exists_filter_eq (assigns_withDefaults hc hdefault)⟩
    rw [values_withDefaults]
    exact List.append_ne_nil_of_left_ne_nil hne _
  · have hsound : Row.empty.IsSound t := ⟨.nil, List.forall_mem_nil _⟩
    obtain ⟨p, hp, -⟩ := assigns_eq_true_iff.1 (assigns_withDefaults (r := Row.empty) hc hdefault)
    exact exists_addRow_ofTable_iff.2 ⟨List.ne_nil_of_mem hp, hsound.withDefaults⟩

/-- The row of a title, with the price that goods in stock have unless it is given. -/
example : ((Row.empty.set stockTitle (.value (.text "pen"))).withDefaults stock) =
    titleFirst "pen" 1 :=
  rfl

theorem accepts_withDefaults_stock :
    ∃ i i' i'', (Insert.ofTable stock).addRow (Row.empty.set stockTitle (.value (.text "pen"))) =
        .ok i ∧
      (Insert.ofTable stock).addRow
        ((Row.empty.set stockTitle (.value (.text "pen"))).withDefaults stock) = .ok i' ∧
      (∃ p, (((Row.empty.set stockTitle (.value (.text "pen"))).withDefaults stock).values.filter
        fun p => p.1.sameAs stockPrice) = [p]) ∧
      stockPrice ∈ stock.columns ∧ stockPrice.decl.default?.isSome = true ∧
      (Insert.ofTable stock).addRow (Row.empty.withDefaults stock) = .ok i'' := by
  have hmem : stockPrice ∈ stock.columns := .tail _ (.head _)
  have hrow : (Insert.ofTable stock).addRow (Row.empty.set stockTitle (.value (.text "pen"))) =
      .ok ⟨stock, [stockTitle], [[.literal (.text "pen") (some .text)]], []⟩ := rfl
  obtain ⟨haccepts, -, -, hempty⟩ := accepts_withDefaults stock
  obtain ⟨⟨i', hi'⟩, honce⟩ := haccepts _ _ hrow
  obtain ⟨i'', hi''⟩ := hempty ⟨stockPrice, hmem, rfl⟩
  exact ⟨_, i', i'', hrow, hi', honce stockPrice hmem rfl, hmem, rfl, hi''⟩

end Filling

end Row

end TypedSql
