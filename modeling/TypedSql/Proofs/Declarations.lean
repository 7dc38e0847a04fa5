import Mathlib.Data.List.Forall2
import TypedSql.Table

/-!
# Declared tables

What comes of the declaration of a table, for every list of columns. A table keeps the name and the
type of each column and whether it may be NULL, and the default as the codec of the type returns it
(`Table.DeclaredBy`, column by column `ColumnDecl.KeptAs`). A declaration is refused without
columns, or else for the first name that is repeated, or else for the first column whose default it
cannot hold (`Table.Refused`). `Table.declare_eq_ok_iff` and `Table.declare_eq_error_iff` say that
declaring finds out which, and an alias of a table has the same declaration
(`Table.DeclaredBy.aliased`).
-/

namespace TypedSql

/-! ### Columns in turn -/

namespace ColumnDecl

variable {table : String} {ds ss : List ColumnDecl} {e : BuildError}

/-- Columns are settled if each of them is. -/
theorem settleAll_eq_ok_iff : settleAll table ds = .ok ss ↔ List.Forall₂ KeptAs ds ss := by
  induction ds generalizing ss with
  | nil => simp [settleAll, eq_comm]
  | cons d ds ih =>
    rw [List.forall₂_cons_left_iff]
    constructor
    · intro h
      unfold settleAll at h
      split at h
      · cases h
      · rename_i s hs
        split at h
        · cases h
        · rename_i ss' hss
          cases h
          exact ⟨s, ss', settle_eq_ok_iff.1 hs, ih.1 hss, rfl⟩
    · rintro ⟨s, ss', hs, hss, rfl⟩
      rw [settleAll, settle_eq_ok_iff.2 hs, ih.2 hss]

/-- Columns are refused for the first of them that is refused. -/
theorem settleAll_eq_error_iff : settleAll table ds = .error e ↔
    ∃ before d after, ds = before ++ d :: after ∧ (∀ c ∈ before, ∃ s, c.KeptAs s) ∧
      d.Refused table e := by
  constructor
  · induction ds with
    | nil => rintro ⟨⟩
    | cons d ds ih =>
      intro h
      unfold settleAll at h
      split at h
      · rename_i hd
        cases h
        exact ⟨[], d, ds, rfl, List.forall_mem_nil _, settle_eq_error_iff.1 hd⟩
      · rename_i s hs
        split at h
        · rename_i hrest
          cases h
          obtain ⟨before, c, after, rfl, hbefore, hc⟩ := ih hrest
          exact ⟨d :: before, c, after, rfl,
            List.forall_mem_cons.2 ⟨⟨s, settle_eq_ok_iff.1 hs⟩, hbefore⟩, hc⟩
        · cases h
  · rintro ⟨before, d, after, rfl, hbefore, hd⟩
    induction before with
    | nil => rw [List.nil_append, settleAll, settle_eq_error_iff.2 hd]
    | cons c before ih =>
      obtain ⟨⟨s, hs⟩, hbefore⟩ := List.forall_mem_cons.1 hbefore
      rw [List.cons_append, settleAll, settle_eq_ok_iff.2 hs, ih hbefore]

theorem mem_iff_of_forall₂_keptAs {s : ColumnDecl} (h : List.Forall₂ KeptAs ds ss) :
    s ∈ ss ↔ ∃ d ∈ ds, d.KeptAs s := by
  induction h with
  | nil => simp
  | @cons d s' ds ss hd _ ih =>
    have hhead : s = s' ↔ d.KeptAs s := ⟨fun heq => heq ▸ hd, fun hs => hs.unique hd⟩
    simp only [List.mem_cons, ih, hhead, exists_eq_or_imp]

end ColumnDecl

/-! ### Repeated names -/

/-- The first name that is among some names or among those before it. -/
theorem firstRepeated_eq_some_iff {seen ns : List String} {n : String} :
    firstRepeated seen ns = some n ↔ ∃ before after, ns = before ++ n :: after ∧
      before.Nodup ∧ (∀ m ∈ before, m ∉ seen) ∧ (n ∈ before ∨ n ∈ seen) := by
  induction ns generalizing seen with
  | nil => simp [firstRepeated]
  | cons m ns ih =>
    rw [firstRepeated]
    -- A name that was seen ends the search, and any other one has been seen from here on.
    by_cases hm : m ∈ seen
    · rw [if_pos hm]
      constructor
      · rintro ⟨⟩
        exact ⟨[], ns, rfl, .nil, List.forall_mem_nil _, .inr hm⟩
      · rintro ⟨_ | ⟨b, before⟩, after, hns, -, hnew, -⟩
        · cases hns
          rfl
        · cases hns
          exact absurd hm (hnew m (.head _))
    · rw [if_neg hm, ih]
      constructor
      · rintro ⟨before, after, rfl, hnodup, hnew, hn⟩
        have hfresh : m ∉ before := fun h => hnew m h (.head _)
        refine ⟨m :: before, after, rfl, List.nodup_cons.2 ⟨hfresh, hnodup⟩, ?_, ?_⟩
        · exact List.forall_mem_cons.2 ⟨hm, fun b hb h => hnew b hb (.tail _ h)⟩
        · simpa [or_left_comm, or_assoc] using hn
      · rintro ⟨_ | ⟨b, before⟩, after, hns, hnodup, hnew, hn⟩
        · cases hns
          exact absurd hn (by simpa using hm)
        · cases hns
          obtain ⟨hfresh, hnodup⟩ := List.nodup_cons.1 hnodup
          refine ⟨before, after, rfl, hnodup, fun b hb h => ?_, ?_⟩
          · obtain rfl | h := List.mem_cons.1 h
            · exact hfresh hb
            · exact hnew b (.tail _ hb) h
          · simpa [or_left_comm, or_assoc] using hn

section Names

variable {decls : List ColumnDecl}

theorem firstRepeated_names_eq_none_iff :
    firstRepeated [] (decls.map ColumnDecl.name) = none ↔ (decls.map ColumnDecl.name).Nodup := by
  simp [firstRepeated_eq_none_iff]

theorem firstRepeated_names_eq_some_iff {column : String} :
    firstRepeated [] (decls.map ColumnDecl.name) = some column ↔
      ∃ before d after, decls = before ++ d :: after ∧ (before.map ColumnDecl.name).Nodup ∧
        d.name ∈ before.map ColumnDecl.name ∧ d.name = column := by
  rw [firstRepeated_eq_some_iff]
  constructor
  · rintro ⟨names, names', hnames, hnodup, -, hmem⟩
    obtain ⟨before, rest, rfl, rfl, hrest⟩ := List.map_eq_append_iff.1 hnames
    obtain ⟨d, after, rfl, rfl, -⟩ := List.map_eq_cons_iff.1 hrest
    exact ⟨before, d, after, rfl, hnodup, by simpa using hmem, rfl⟩
  · rintro ⟨before, d, after, rfl, hnodup, hmem, rfl⟩
    exact ⟨_, _, List.map_append, hnodup, fun _ _ => List.not_mem_nil, .inl hmem⟩

end Names

/-! ### Tables -/

namespace Table

/-- The columns of a table are those of a declaration, as a table keeps them. -/
def DeclaredBy (t : Table) (decls : List ColumnDecl) : Prop :=
  List.Forall₂ ColumnDecl.KeptAs decls t.decls

/-- Why the declaration of a table is refused. -/
inductive Refused (name : String) : List ColumnDecl → BuildError → Prop
  /-- It has no columns. -/
  | noColumns : Refused name [] (.noColumns name)
  /-- A column has the name of one before it, and those before it have different names. -/
  | declaredTwice {before after : List ColumnDecl} {d : ColumnDecl}
      (hnodup : (before.map ColumnDecl.name).Nodup)
      (hrepeated : d.name ∈ before.map ColumnDecl.name) :
      Refused name (before ++ d :: after) (.declaredTwice name d.name)
  /-- All columns have different names, but one of them is refused, and none of those before it. -/
  | column {before after : List ColumnDecl} {d : ColumnDecl} {e : BuildError}
      (hnodup : ((before ++ d :: after).map ColumnDecl.name).Nodup)
      (hbefore : ∀ c ∈ before, ∃ s, c.KeptAs s) (hd : d.Refused name e) :
      Refused name (before ++ d :: after) e

section Declaring

variable {schema? : Option String} {name : String} {decls : List ColumnDecl} {t : Table}
  {e : BuildError}

/-- The checks that a declaration passes, apart from the proofs that its table carries. -/
theorem declare_eq_ok_iff_checks : declare schema? name decls = .ok t ↔
    decls ≠ [] ∧ firstRepeated [] (decls.map ColumnDecl.name) = none ∧
      t.ref = ⟨schema?, name, none⟩ ∧ ColumnDecl.settleAll name decls = .ok t.decls := by
  obtain ⟨ref, kept, -, -, -⟩ := t
  unfold declare
  split
  · simp_all
  · split
    · simp_all
    · split
      · simp_all
      · simp_all [eq_comm]

/-- The checks that a declaration fails. -/
theorem declare_eq_error_iff_checks : declare schema? name decls = .error e ↔
    (decls = [] ∧ e = .noColumns name) ∨
      (∃ column, firstRepeated [] (decls.map ColumnDecl.name) = some column ∧
        e = .declaredTwice name column) ∨
      (firstRepeated [] (decls.map ColumnDecl.name) = none ∧
        ColumnDecl.settleAll name decls = .error e) := by
  unfold declare
  split
  · simp_all [firstRepeated, ColumnDecl.settleAll, eq_comm]
  · rename_i hne
    split
    · rename_i column hcolumn
      simp [hne, hcolumn, eq_comm]
    · split
      · simp_all
      · simp_all

/-- **What declaring a table yields**: a table without an alias that keeps the declaration. -/
theorem declare_eq_ok_iff : declare schema? name decls = .ok t ↔
    decls ≠ [] ∧ (decls.map ColumnDecl.name).Nodup ∧ t.ref = ⟨schema?, name, none⟩ ∧
      t.DeclaredBy decls := by
  rw [declare_eq_ok_iff_checks, firstRepeated_names_eq_none_iff, ColumnDecl.settleAll_eq_ok_iff,
    DeclaredBy]

/-- **What declaring a table refuses**, and for what. -/
theorem declare_eq_error_iff :
    declare schema? name decls = .error e ↔ Refused name decls e := by
  rw [declare_eq_error_iff_checks, firstRepeated_names_eq_none_iff,
    ColumnDecl.settleAll_eq_error_iff]
  simp only [firstRepeated_names_eq_some_iff]
  constructor
  · rintro (⟨rfl, rfl⟩ | ⟨_, ⟨before, d, after, rfl, hnodup, hmem, rfl⟩, rfl⟩ |
      ⟨hnodup, before, d, after, rfl, hbefore, hd⟩)
    · exact .noColumns
    · exact .declaredTwice hnodup hmem
    · exact .column hnodup hbefore hd
  · rintro (_ | ⟨hnodup, hmem⟩ | ⟨hnodup, hbefore, hd⟩)
    · exact .inl ⟨rfl, rfl⟩
    · exact .inr (.inl ⟨_, ⟨_, _, _, rfl, hnodup, hmem, rfl⟩, rfl⟩)
    · exact .inr (.inr ⟨hnodup, _, _, _, rfl, hbefore, hd⟩)

-- The codec of a column of doubles makes a whole number one of them.
example : (declare (some "sales") "orders"
    [⟨"id", .bigint, false, none⟩, ⟨"total", .double, false, some (.int 0)⟩]).map
      (fun t => t.decls.map ColumnDecl.default?) = .ok [none, some (.float (.ofInt 0))] :=
  rfl

theorem declaredBy_of_declare (h : declare schema? name decls = .ok t) : t.DeclaredBy decls :=
  (declare_eq_ok_iff.1 h).2.2.2

/-- An alias of a table has the same declaration. -/
theorem DeclaredBy.aliased (h : t.DeclaredBy decls) (newName : String) :
    (t.aliased newName).DeclaredBy decls := by
  rwa [DeclaredBy, aliased_decls]

theorem DeclaredBy.mem_columns_iff (h : t.DeclaredBy decls) {c : Column} :
    c ∈ t.columns ↔ c.table = t.ref ∧ ∃ d ∈ decls, d.KeptAs c.decl := by
  rw [← ColumnDecl.mem_iff_of_forall₂_keptAs h, columns, List.mem_map]
  constructor
  · rintro ⟨s, hs, rfl⟩
    exact ⟨rfl, hs⟩
  · rintro ⟨htable, hc⟩
    exact ⟨c.decl, hc, htable ▸ rfl⟩

end Declaring

end Table

end TypedSql
