import TypedSql.Error

/-!
# Tables

A table is declared by its name and its columns. A statement knows a table by a `TableRef`: two
tables are the same source of a statement exactly when their schema, name and alias agree. A
`Column` is a declaration together with the reference of its table, so an aliased table has columns
of its own. Declared tables have columns, no two of one name, and defaults that their columns hold.
-/

namespace TypedSql

/-- How a statement refers to a table. -/
structure TableRef where
  schema? : Option String
  name : String
  alias? : Option String
  deriving DecidableEq, Repr

/-- The name that qualifies the columns of a table: its alias, or else its own name. -/
def TableRef.qualifier (r : TableRef) : String :=
  r.alias?.getD r.name

/-- The declaration of a column. -/
structure ColumnDecl where
  name : String
  type : ColumnType
  nullable : Bool
  default? : Option Value
  deriving DecidableEq

namespace ColumnDecl

/-- The default, if there is one, is a value that the column holds. -/
def HasSoundDefault (d : ColumnDecl) : Prop :=
  ∀ v, d.default? = some v → (v = .null → d.nullable = true) ∧ d.type.encode v = .ok v

/-- Check the default of a column of a table and encode it with the type of the column. -/
def settle (table : String) (d : ColumnDecl) : Except BuildError ColumnDecl :=
  let column := table ++ "." ++ d.name
  match d.default? with
  | none => .ok d
  | some v =>
    if v.isNull && !d.nullable then
      .error (.notNullable column)
    else
      match d.type.encode v with
      | .ok w => .ok { d with default? := some w }
      | .error fault => .error (.encoding column fault)

theorem encode_eq_null_iff {t : ColumnType} {v w : Value} (h : t.encode v = .ok w) :
    w = .null ↔ v = .null := by
  revert h
  fun_cases ColumnType.encode t v <;> intro h
  all_goals grind [ColumnType.encodeWithin_eq_ok_iff, ColumnType.encodeUpTo_eq_ok_iff]

/-- What a table keeps of the declaration of a column: all of it, with the default as the codec of
the type returns it. The default is NULL only where the column may be NULL. -/
structure KeptAs (d s : ColumnDecl) : Prop where
  name_eq : s.name = d.name
  type_eq : s.type = d.type
  nullable_eq : s.nullable = d.nullable
  nullable_of_null : d.default? = some .null → d.nullable = true
  encoded : Option.Rel (fun v w => d.type.encode v = .ok w) d.default? s.default?

/-- Why the declaration of a column of a table is refused. -/
inductive Refused (table : String) (d : ColumnDecl) : BuildError → Prop
  /-- Its default is NULL, which it cannot hold. -/
  | null (hdefault : d.default? = some .null) (hnullable : d.nullable = false) :
      Refused table d (.notNullable (table ++ "." ++ d.name))
  /-- The codec of its type refuses its default. -/
  | encoding {v : Value} {fault : EncodingFault} (hdefault : d.default? = some v)
      (hfault : d.type.encode v = .error fault) :
      Refused table d (.encoding (table ++ "." ++ d.name) fault)

section Settling

variable {table : String} {d s : ColumnDecl} {e : BuildError}

theorem settle_eq_ok_iff : settle table d = .ok s ↔ d.KeptAs s := by
  constructor
  · intro h
    unfold settle at h
    split at h
    · rename_i hdefault
      cases h
      exact ⟨rfl, rfl, rfl, by simp [hdefault], hdefault ▸ .none⟩
    · rename_i v hdefault
      split at h
      · cases h
      · rename_i hheld
        cases hw : d.type.encode v with
        | error fault => simp [hw] at h
        | ok w =>
          simp only [hw, Except.ok.injEq] at h
          subst h
          refine ⟨rfl, rfl, rfl, fun hnull => ?_, hdefault ▸ .some hw⟩
          obtain rfl := Option.some.inj (hdefault.symm.trans hnull)
          simpa using hheld
  · obtain ⟨name, type, nullable, default?⟩ := d
    obtain ⟨name', type', nullable', default'?⟩ := s
    rintro ⟨rfl, rfl, rfl, hnull, hrel⟩
    cases hrel with
    | none => rfl
    | @some v w hw =>
      have hheld : ¬(v.isNull && !nullable') = true := by
        simpa using fun hv => hnull (congrArg some hv)
      simp only [settle, if_neg hheld, hw]

theorem settle_eq_error_iff : settle table d = .error e ↔ d.Refused table e := by
  constructor
  · intro h
    unfold settle at h
    split at h
    · cases h
    · rename_i v hdefault
      split at h
      · rename_i hunheld
        obtain ⟨hv, hnullable⟩ : v = .null ∧ d.nullable = false := by simpa using hunheld
        cases h
        exact .null (hv ▸ hdefault) hnullable
      · split at h
        · cases h
        · rename_i fault hfault
          cases h
          exact .encoding hdefault hfault
  · intro h
    cases h with
    | null hdefault hnullable => simp [settle, hdefault, hnullable]
    | @encoding v fault hdefault hfault =>
      -- The codec takes NULL, so what it refuses is another value.
      have hv : v ≠ .null := by
        rintro rfl
        simp at hfault
      simp [settle, hdefault, hfault, hv]

theorem KeptAs.unique {s' : ColumnDecl} (h : d.KeptAs s) (h' : d.KeptAs s') : s = s' := by
  have hs : settle "" d = .ok s := settle_eq_ok_iff.2 h
  exact Except.ok.inj (hs.symm.trans (settle_eq_ok_iff.2 h'))

/-- The defaults that a table keeps are those that its columns declare, encoded. -/
theorem KeptAs.default?_eq_some_iff (h : d.KeptAs s) {w : Value} :
    s.default? = some w ↔ ∃ v, d.default? = some v ∧ d.type.encode v = .ok w := by
  have hencoded := h.encoded
  generalize d.default? = default? at hencoded ⊢
  generalize s.default? = kept? at hencoded ⊢
  cases hencoded with
  | none => simp
  | some hw => simp [hw]

theorem KeptAs.hasSoundDefault (h : d.KeptAs s) : s.HasSoundDefault := by
  intro w hw
  obtain ⟨v, hdefault, hencode⟩ := h.default?_eq_some_iff.1 hw
  refine ⟨fun hnull => ?_, ?_⟩
  · rw [h.nullable_eq]
    exact h.nullable_of_null ((encode_eq_null_iff hencode).1 hnull ▸ hdefault)
  · rw [h.type_eq]
    exact ColumnType.encode_of_encode_eq_ok hencode

end Settling

/-- Settle the columns of a table in turn. -/
def settleAll (table : String) : List ColumnDecl → Except BuildError (List ColumnDecl)
  | [] => .ok []
  | d :: ds =>
    match settle table d with
    | .error e => .error e
    | .ok s =>
      match settleAll table ds with
      | .error e => .error e
      | .ok ss => .ok (s :: ss)

theorem settleAll_names {table : String} {ds ss : List ColumnDecl}
    (h : settleAll table ds = .ok ss) : ss.map name = ds.map name := by
  induction ds generalizing ss with
  | nil => cases h; rfl
  | cons d ds ih => grind [settleAll, settle_eq_ok_iff, KeptAs.name_eq]

theorem settleAll_hasSoundDefault {table : String} {ds ss : List ColumnDecl}
    (h : settleAll table ds = .ok ss) : ∀ s ∈ ss, s.HasSoundDefault := by
  induction ds generalizing ss with
  | nil => cases h; simp
  | cons d ds ih => grind [settleAll, settle_eq_ok_iff, KeptAs.hasSoundDefault]

end ColumnDecl

/-- The first name that occurs among the names before it. -/
def firstRepeated (seen : List String) : List String → Option String
  | [] => none
  | n :: ns => if n ∈ seen then some n else firstRepeated (n :: seen) ns

theorem firstRepeated_eq_none_iff {seen ns : List String} :
    firstRepeated seen ns = none ↔ ns.Nodup ∧ ∀ n ∈ ns, n ∉ seen := by
  induction ns generalizing seen with
  | nil => simp [firstRepeated]
  | cons n ns ih => grind [firstRepeated]

/-- A declared column of a table that a statement refers to. -/
structure Column where
  table : TableRef
  decl : ColumnDecl
  deriving DecidableEq

namespace Column

/-- The name of a column. -/
def name (c : Column) : String :=
  c.decl.name

/-- The declared type of a column. -/
def type (c : Column) : ColumnType :=
  c.decl.type

/-- The name that qualifies a column. -/
def qualifier (c : Column) : String :=
  c.table.qualifier

/-- A column in an error message. -/
def describe (c : Column) : String :=
  c.qualifier ++ "." ++ c.name

/-- Two columns are the same when they have one name and belong to the same source. -/
def sameAs (c d : Column) : Bool :=
  c.name == d.name && c.table == d.table

@[simp] theorem sameAs_iff (c d : Column) :
    c.sameAs d = true ↔ c.name = d.name ∧ c.table = d.table := by
  simp [sameAs]

end Column

/-- A declared table, under the reference that a statement uses for it. -/
structure Table where
  ref : TableRef
  decls : List ColumnDecl
  decls_ne_nil : decls ≠ []
  nodup_names : (decls.map ColumnDecl.name).Nodup
  hasSoundDefault : ∀ d ∈ decls, d.HasSoundDefault

namespace Table

/--
Declare a table. It is refused without columns, then for a repeated column name, then for the first
default that its column does not hold.
-/
def declare (schema? : Option String) (name : String) (decls : List ColumnDecl) :
    Except BuildError Table :=
  if hne : decls = [] then
    .error (.noColumns name)
  else
    match hnodup : firstRepeated [] (decls.map ColumnDecl.name) with
    | some column => .error (.declaredTwice name column)
    | none =>
      match hsettled : ColumnDecl.settleAll name decls with
      | .error e => .error e
      | .ok settled =>
        have hnames := ColumnDecl.settleAll_names hsettled
        .ok
          { ref := ⟨schema?, name, none⟩
            decls := settled
            decls_ne_nil := by
              intro h
              simp [h, hne] at hnames
            nodup_names := by
              rw [hnames]
              exact (firstRepeated_eq_none_iff.1 hnodup).1
            hasSoundDefault := ColumnDecl.settleAll_hasSoundDefault hsettled }

/-- The same table under an alias. -/
def aliased (t : Table) (name : String) : Table :=
  { t with ref := { t.ref with alias? := some name } }

/-- The name of a table. -/
def name (t : Table) : String :=
  t.ref.name

/-- The columns of a table, in the order of their declarations. -/
def columns (t : Table) : List Column :=
  t.decls.map fun d => ⟨t.ref, d⟩

/-- The column with a name. -/
def column (t : Table) (name : String) : Except BuildError Column :=
  match t.columns.find? fun c => c.name == name with
  | some c => .ok c
  | none => .error (.unknownColumn t.name name)

@[simp] theorem aliased_decls (t : Table) (name : String) : (t.aliased name).decls = t.decls :=
  rfl

theorem table_of_mem_columns {t : Table} {c : Column} (h : c ∈ t.columns) : c.table = t.ref := by
  simp only [columns, List.mem_map] at h
  obtain ⟨d, _, rfl⟩ := h
  rfl

end Table

end TypedSql
