import Mathlib.Data.List.Forall2
import Mathlib.Data.List.Perm.Subperm
import TypedSql.Proofs.Runs
import TypedSql.Proofs.TypedLiterals

/-!
# Rows of inserts

What `Insert.addRow` asks of a row and what it stores, said without its loops.

* `Column.Fits`: a value by itself is one that a column of the table takes.
* A row is encoded exactly if it gives values, to columns of different names, each of which fits
  (`Row.exists_encode_iff`).
* An insert that has columns takes a row exactly if the row covers these columns (`Row.Covers`) and
  its values fit; it then holds for each column what the row stores there (`Row.Stores`), whatever
  the order of the row (`Insert.addRow_eq_ok_iff`, `Insert.addRow_of_perm`).

Columns are told apart by their names and the reference of their table (`Column.sameAs`), and a
value is encoded for the column under which the row gives it. That is the column of the insert when
both belong to one declaration of the table.
-/

namespace TypedSql

/-! ### Values that fit -/

/-- A column of a table takes an operand: NULL where it may be NULL, a raw value of its type, and
any other expression that has its class, or none, and uses no columns. -/
structure Column.Fits (t : Table) (c : Column) (operand : Operand) : Prop where
  table_eq : c.table = t.ref
  nullable : operand.isNull = true → c.decl.nullable = true
  encoded : ∀ v, operand.raw? = some v → ∃ w, c.type.encode v = .ok w
  class_eq : ∀ e, operand = .expr e → operand.raw? = none →
    ∀ found, e.class? = some found → found = c.type.valueClass
  closed : ∀ e, operand = .expr e → e.columns = []

section Fits

variable {t : Table} {c : Column} {operand : Operand} {e : Expr} {v : Value}

theorem Column.accept_eq_ok_iff {clause : AssignmentClause} {sources : List TableRef} :
    c.accept clause sources operand = .ok e ↔
      (operand.isNull = true → c.decl.nullable = true) ∧ (Expr.column c).resolve operand = .ok e ∧
        (∀ x ∈ e.columns, x.table ∈ sources) ∧
        ∀ found, e.class? = some found → found = c.type.valueClass := by
  refine ⟨accept_eq_ok, fun ⟨hnull, hresolve, hbound, hclass⟩ => ?_⟩
  have hcheck : ¬ (operand.isNull && !c.decl.nullable) = true := by
    cases hoperand : operand.isNull with
    | false => simp
    | true => simp [hnull hoperand]
  rw [accept, if_neg hcheck]
  refine bind_eq_ok.2 ⟨e, hresolve, bind_eq_ok.2 ⟨(), ?_, bind_eq_ok.2 ⟨(), ?_, rfl⟩⟩⟩
  · exact (Expr.expectBound_eq_ok_iff e sources).2 hbound
  · exact expectAssignable_eq_ok_iff.2 hclass

/-- Beside a column, an operand that holds a raw value becomes a literal of the type. -/
theorem Expr.resolve_column_raw (h : operand.raw? = some v) :
    (Expr.column c).resolve operand = .ok e ↔
      ∃ w, c.type.encode v = .ok w ∧ e = .literal w (some c.type) := by
  rw [resolve_raw h, resolveValue]
  simp only [Expr.type?]
  cases c.type.encode v with
  | ok w => simp [eq_comm]
  | error fault => simp

/-- An operand that holds no raw value is an expression, which is left as it is. -/
theorem Operand.exists_of_raw?_eq_none (h : operand.raw? = none) :
    ∃ x, operand = .expr x ∧ ∀ anchor : Expr, anchor.resolve operand = .ok x := by
  unfold raw? at h
  split at h
  · cases h
  · cases h
  · rename_i x hx
    refine ⟨x, rfl, fun anchor => ?_⟩
    unfold Expr.resolve
    split
    · rename_i heq
      cases heq
    · rename_i v heq
      cases heq
      exact absurd rfl (hx v)
    · rename_i heq
      cases heq
      rfl

/-- A literal is what an operand holds that has a raw value and is an expression. -/
theorem Operand.columns_of_raw? (h : operand.raw? = some v) {x : Expr} (hx : operand = .expr x) :
    x.columns = [] := by
  subst hx
  unfold raw? at h
  split at h
  · rename_i heq
    cases heq
  · rename_i heq
    cases heq
    rfl
  · cases h

/-- **An operand fits a column of a table exactly if the column accepts it.** -/
theorem Column.fits_iff :
    c.Fits t operand ↔ c.table = t.ref ∧ ∃ e, c.accept .values [] operand = .ok e := by
  cases hraw : operand.raw? with
  | some v =>
    refine ⟨fun h => ?_, fun ⟨htable, e, haccept⟩ => ?_⟩
    · obtain ⟨w, hw⟩ := h.encoded v hraw
      refine ⟨h.table_eq, .literal w (some c.type), accept_eq_ok_iff.2 ⟨h.nullable,
        (Expr.resolve_column_raw hraw).2 ⟨w, hw, rfl⟩, List.forall_mem_nil _, ?_⟩⟩
      rintro found ⟨⟩
      rfl
    · obtain ⟨hnull, hresolve, -, -⟩ := accept_eq_ok_iff.1 haccept
      obtain ⟨w, hw, -⟩ := (Expr.resolve_column_raw hraw).1 hresolve
      refine ⟨htable, hnull, fun _ h => ?_, fun _ _ h => ?_, fun _ => Operand.columns_of_raw? hraw⟩
      · obtain rfl := Option.some.inj (hraw.symm.trans h)
        exact ⟨w, hw⟩
      · cases hraw.symm.trans h
  | none =>
    obtain ⟨x, rfl, hresolve⟩ := Operand.exists_of_raw?_eq_none hraw
    refine ⟨fun h => ?_, fun ⟨htable, e, haccept⟩ => ?_⟩
    · refine ⟨h.table_eq, x, accept_eq_ok_iff.2 ⟨h.nullable, hresolve _, ?_,
        h.class_eq x rfl hraw⟩⟩
      rw [h.closed x rfl]
      exact List.forall_mem_nil _
    · obtain ⟨hnull, hx, -, hclass⟩ := accept_eq_ok_iff.1 haccept
      obtain rfl := Except.ok.inj ((hresolve _).symm.trans hx)
      refine ⟨htable, hnull, fun _ h => ?_, ?_, ?_⟩
      · cases hraw.symm.trans h
      · rintro _ ⟨⟩ _
        exact hclass
      · rintro _ ⟨⟩
        exact columns_of_accept haccept

end Fits

/-! ### Rows that are encoded -/

/-- A row gives a column of a table an operand, which becomes an expression. -/
structure Row.Settles (t : Table) (p : Column × Operand) (q : Column × Expr) : Prop where
  column_eq : q.1 = p.1
  table_eq : p.1.table = t.ref
  accept : p.1.accept .values [] p.2 = .ok q.2

/-- A row gives a value to each of some columns once, and to no others. -/
structure Row.Covers (r : Row) (columns : List Column) : Prop where
  once : ∀ c ∈ columns, ∃ p, (r.values.filter fun p => p.1.sameAs c) = [p]
  only : ∀ p ∈ r.values, ∃ c ∈ columns, p.1.sameAs c = true

/-- The expression that a row stores for a column: the only operand that it gives to the column,
beside the column as the row names it. -/
def Row.Stores (r : Row) (c : Column) (e : Expr) : Prop :=
  ∃ d operand, (r.values.filter fun p => p.1.sameAs c) = [(d, operand)] ∧
    (Expr.column d).resolve operand = .ok e

section Lists

variable {α β : Type}

theorem exists_forall₂ {R : α → β → Prop} {xs : List α} (h : ∀ x ∈ xs, ∃ y, R x y) :
    ∃ ys, List.Forall₂ R xs ys := by
  induction xs with
  | nil => exact ⟨[], .nil⟩
  | cons x xs ih =>
    obtain ⟨⟨y, hy⟩, hxs⟩ := List.forall_mem_cons.1 h
    obtain ⟨ys, hys⟩ := ih hxs
    exact ⟨y :: ys, .cons hy hys⟩

theorem exists_of_forall₂ {R : α → β → Prop} {xs : List α} {ys : List β}
    (h : List.Forall₂ R xs ys) : ∀ x ∈ xs, ∃ y, R x y := by
  induction h with
  | nil => exact List.forall_mem_nil _
  | cons hxy _ ih => exact List.forall_mem_cons.2 ⟨⟨_, hxy⟩, ih⟩

theorem mapM_eq_some_iff {f : α → Option β} {xs : List α} {ys : List β} :
    xs.mapM f = some ys ↔ List.Forall₂ (fun x y => f x = some y) xs ys := by
  induction xs generalizing ys with
  | nil => simp [eq_comm]
  | cons x xs ih =>
    simp only [List.mapM_cons, Option.bind_eq_bind, Option.bind_eq_some_iff, Option.pure_def,
      Option.some.injEq, ih, List.forall₂_cons_left_iff]
    constructor
    · rintro ⟨y, hy, rest, hrest, rfl⟩
      exact ⟨y, rest, hy, hrest, rfl⟩
    · rintro ⟨y, rest, hy, hrest, rfl⟩
      exact ⟨y, hy, rest, hrest, rfl⟩

end Lists

section Encoding

variable {t : Table} {r r' : Row} {c : Column} {e : Expr} {encoded : List (Column × Expr)}
  {values : List (Column × Operand)}

theorem Row.encodeFrom_eq_ok_iff {seen : List Column} (hseen : ∀ d ∈ seen, d.table = t.ref) :
    encodeFrom t seen values = .ok encoded ↔
      List.Forall₂ (Settles t) values encoded ∧ (values.map fun p => p.1.name).Nodup ∧
        ∀ p ∈ values, ∀ d ∈ seen, d.name ≠ p.1.name := by
  induction values generalizing seen encoded with
  | nil => simp [encodeFrom, eq_comm]
  | cons p values ih =>
    obtain ⟨c, operand⟩ := p
    have hin : c.expectIn [t.ref] = .ok () ↔ c.table = t.ref := by
      simp [Column.expectIn]
    constructor
    · intro h
      obtain ⟨_, hc, h⟩ := bind_eq_ok.1 h
      split at h
      · cases h
      · rename_i hnew
        obtain ⟨e, he, h⟩ := bind_eq_ok.1 h
        obtain ⟨rest, hrest, h⟩ := bind_eq_ok.1 h
        obtain rfl := pure_eq_ok.1 h
        have hc := hin.1 hc
        obtain ⟨hsettles, hnodup, hfresh⟩ := (ih (List.forall_mem_cons.2 ⟨hc, hseen⟩)).1 hrest
        refine ⟨.cons ⟨rfl, hc, he⟩ hsettles, ?_, List.forall_mem_cons.2
          ⟨fun d hd hname => ?_, fun p hp d hd => hfresh p hp d (List.mem_cons_of_mem _ hd)⟩⟩
        · refine List.nodup_cons.2 ⟨fun hmem => ?_, hnodup⟩
          obtain ⟨p, hp, hname⟩ := List.mem_map.1 hmem
          exact hfresh p hp c (.head _) hname.symm
        · refine hnew (List.any_eq_true.2 ⟨d, hd, ?_⟩)
          exact (Column.sameAs_iff d c).2 ⟨hname, (hseen d hd).trans hc.symm⟩
    · rintro ⟨hsettles, hnodup, hfresh⟩
      obtain ⟨⟨d, e⟩, rest, ⟨hd, hc, he⟩, hrest, rfl⟩ := List.forall₂_cons_left_iff.1 hsettles
      obtain rfl : d = c := hd
      obtain ⟨hfresh, hfreshRest⟩ := List.forall_mem_cons.1 hfresh
      obtain ⟨hnew, hnodup⟩ := List.nodup_cons.1 hnodup
      have hunseen : ¬ (seen.any fun x => x.sameAs d) = true := by
        intro hany
        obtain ⟨x, hx, hsame⟩ := List.any_eq_true.1 hany
        exact hfresh x hx ((Column.sameAs_iff x d).1 hsame).1
      have hlater : encodeFrom t (d :: seen) values = .ok rest := by
        refine (ih (List.forall_mem_cons.2 ⟨hc, hseen⟩)).2 ⟨hrest, hnodup, fun p hp =>
          List.forall_mem_cons.2 ⟨fun hname => ?_, hfreshRest p hp⟩⟩
        exact hnew (List.mem_map.2 ⟨p, hp, hname.symm⟩)
      refine bind_eq_ok.2 ⟨(), hin.2 hc, ?_⟩
      rw [if_neg hunseen]
      exact bind_eq_ok.2 ⟨e, he, bind_eq_ok.2 ⟨rest, hlater, rfl⟩⟩

/-- **A row is encoded** exactly if it gives values, to columns of different names, and each of them
is accepted. -/
theorem Row.encode_eq_ok_iff : r.encode t = .ok encoded ↔
    r.values ≠ [] ∧ r.names.Nodup ∧ List.Forall₂ (Settles t) r.values encoded := by
  cases hvalues : r.values with
  | nil => simp [encode, hvalues]
  | cons p rest =>
    rw [encode, hvalues, List.isEmpty_cons, if_neg Bool.false_ne_true,
      encodeFrom_eq_ok_iff (List.forall_mem_nil _), names, hvalues]
    simp [and_comm]

theorem Row.exists_encode_iff : (∃ encoded, r.encode t = .ok encoded) ↔
    r.values ≠ [] ∧ r.names.Nodup ∧ ∀ p ∈ r.values, p.1.Fits t p.2 := by
  simp only [encode_eq_ok_iff, exists_and_left]
  refine and_congr_right fun _ => and_congr_right fun _ => ⟨fun ⟨_, h⟩ p hp => ?_, fun h => ?_⟩
  · obtain ⟨q, hq⟩ := exists_of_forall₂ h p hp
    exact Column.fits_iff.2 ⟨hq.table_eq, q.2, hq.accept⟩
  · refine exists_forall₂ fun p hp => ?_
    obtain ⟨htable, e, he⟩ := Column.fits_iff.1 (h p hp)
    exact ⟨(p.1, e), rfl, htable, he⟩

/-- A row that is encoded keeps its columns. -/
theorem Row.columns_of_encode (h : r.encode t = .ok encoded) :
    encoded.map Prod.fst = r.values.map Prod.fst := by
  obtain ⟨-, -, hsettles⟩ := encode_eq_ok_iff.1 h
  clear h
  generalize r.values = values at hsettles ⊢
  induction hsettles with
  | nil => rfl
  | cons hpq _ ih => rw [List.map_cons, List.map_cons, hpq.column_eq, ih]

/-- Among columns of different names, no two are the same as one column. -/
theorem Row.length_filter_le (h : r.names.Nodup) (c : Column) :
    (r.values.filter fun p => p.1.sameAs c).length ≤ 1 := by
  have hsublist := (List.filter_sublist (p := fun p => p.1.sameAs c) (l := r.values)).map
    fun p => p.1.name
  have hsame : ∀ n ∈ (r.values.filter fun p => p.1.sameAs c).map fun p => p.1.name,
      n = c.name := by
    refine List.forall_mem_map.2 fun p hp => ?_
    exact ((Column.sameAs_iff p.1 c).1 (List.mem_filter.1 hp).2).1
  have hnodup := h.sublist hsublist
  rw [List.eq_replicate_of_mem hsame, List.nodup_replicate, List.length_map] at hnodup
  exact hnodup

/-- A row that is encoded stores what the search for a column finds. -/
theorem Row.stores_iff_find? (h : r.encode t = .ok encoded) :
    ((encoded.find? fun q => q.1.sameAs c).map Prod.snd) = some e ↔ r.Stores c e := by
  obtain ⟨-, hnodup, hsettles⟩ := encode_eq_ok_iff.1 h
  have hfilter : List.Forall₂ (Settles t) (r.values.filter fun p => p.1.sameAs c)
      (encoded.filter fun q => q.1.sameAs c) := by
    refine List.rel_filter (fun p q hpq => ?_) hsettles
    simp only [hpq.column_eq]
  unfold Stores
  rw [← List.head?_filter]
  match hvalues : r.values.filter fun p => p.1.sameAs c with
  | [] =>
    rw [hvalues, List.forall₂_nil_left_iff] at hfilter
    simp [hfilter, hvalues]
  | [(d, operand)] =>
    rw [hvalues] at hfilter
    obtain ⟨q, _, hq, -, hencoded⟩ := List.forall₂_cons_left_iff.1 hfilter
    have hresolve : (Expr.column d).resolve operand = .ok q.2 :=
      (Column.accept_eq_ok_iff.1 hq.accept).2.1
    rw [hencoded, hvalues]
    simp [hresolve]
  | p :: p' :: rest =>
    have hle := length_filter_le hnodup c
    rw [hvalues] at hle
    simp at hle

theorem Insert.align_eq_some_iff {columns : List Column} {row : List Expr}
    (h : r.encode t = .ok encoded) :
    align columns encoded = some row ↔ List.Forall₂ r.Stores columns row := by
  simp only [align, mapM_eq_some_iff, Row.stores_iff_find? h]

/-- The order of a row does not matter to what it stores. -/
theorem Row.stores_iff_of_perm (h : r.values.Perm r'.values) : r.Stores c e ↔ r'.Stores c e := by
  have hfilter := h.filter fun p => p.1.sameAs c
  refine exists_congr fun d => exists_congr fun operand => and_congr_left fun _ => ?_
  exact ⟨fun hr => List.perm_singleton.1 (hr ▸ hfilter.symm),
    fun hr => List.perm_singleton.1 (hr ▸ hfilter)⟩

end Encoding

/-! ### Rows that an insert takes -/

section Inserts

variable {t : Table} {r r' : Row} {i i' : Insert} {columns : List Column} {row : List Expr}
  {encoded : List (Column × Expr)}

theorem Row.Covers.of_perm (h : r.Covers columns) (hperm : r.values.Perm r'.values) :
    r'.Covers columns := by
  refine ⟨fun c hc => ?_, fun p hp => h.only p (hperm.mem_iff.2 hp)⟩
  obtain ⟨p, hp⟩ := h.once c hc
  exact ⟨p, List.perm_singleton.1 (hp ▸ (hperm.filter _).symm)⟩

/-- Values that fit are the only ones of their columns if the columns are covered. -/
theorem Row.Covers.nodup (h : r.Covers columns) (hfits : ∀ p ∈ r.values, p.1.Fits t p.2) :
    r.names.Nodup := by
  refine List.nodup_iff_count_le_one.2 fun n => ?_
  by_cases hn : n ∈ r.names
  · obtain ⟨p, hp, rfl⟩ := List.mem_map.1 hn
    obtain ⟨c, hc, hsame⟩ := h.only p hp
    obtain ⟨hname, htable⟩ := (Column.sameAs_iff p.1 c).1 hsame
    obtain ⟨q, hq⟩ := h.once c hc
    -- All columns of the row are of the table, so that their names tell them apart.
    have hcount : r.names.count p.1.name = (r.values.filter fun p => p.1.sameAs c).length := by
      rw [names, List.count_eq_countP, List.countP_map, List.countP_eq_length_filter]
      refine congrArg List.length (List.filter_congr fun q hq => ?_)
      have htables : q.1.table = c.table :=
        (hfits q hq).table_eq.trans ((hfits p hp).table_eq.symm.trans htable)
      simp [Column.sameAs, hname, htables]
    rw [hcount, hq]
    exact le_rfl
  · rw [List.count_eq_zero_of_not_mem hn]
    exact Nat.zero_le 1

theorem Row.mem_names_of_filter {c : Column} {p : Column × Operand}
    (h : (r.values.filter fun p => p.1.sameAs c) = [p]) : c.name ∈ r.names := by
  obtain ⟨hp, hsame⟩ := List.mem_filter.1 (h ▸ List.mem_singleton_self p)
  exact List.mem_map.2 ⟨p, hp, ((Column.sameAs_iff p.1 c).1 hsame).1⟩

/-- The columns of a row that covers others have the names of these. -/
theorem Row.Covers.mem_names_iff (h : r.Covers columns) (n : String) :
    n ∈ r.names ↔ n ∈ columns.map Column.name := by
  constructor
  · intro hn
    obtain ⟨p, hp, rfl⟩ := List.mem_map.1 hn
    obtain ⟨c, hc, hsame⟩ := h.only p hp
    exact List.mem_map.2 ⟨c, hc, ((Column.sameAs_iff p.1 c).1 hsame).1.symm⟩
  · intro hn
    obtain ⟨c, hc, rfl⟩ := List.mem_map.1 hn
    exact mem_names_of_filter (h.once c hc).choose_spec

/-- A row that covers columns with values that fit stores something for each of them. -/
theorem Row.Covers.exists_stores (h : r.Covers columns)
    (hfits : ∀ p ∈ r.values, p.1.Fits t p.2) : ∃ row, List.Forall₂ r.Stores columns row := by
  refine exists_forall₂ fun c hc => ?_
  obtain ⟨⟨d, operand⟩, hp⟩ := h.once c hc
  have hmem := (List.mem_filter.1 (hp ▸ List.mem_singleton_self (d, operand))).1
  obtain ⟨-, e, he⟩ := Column.fits_iff.1 (hfits _ hmem)
  exact ⟨e, d, operand, hp, (Column.accept_eq_ok_iff.1 he).2.1⟩

/-- A row of as many columns that stores something for each of them gives values to no others. -/
theorem Row.covers_of_stores (hr : r.encode t = .ok encoded)
    (hcolumns : ∀ c ∈ columns, c.table = t.ref) (hnodup : (columns.map Column.name).Nodup)
    (hlength : encoded.length = columns.length) (h : List.Forall₂ r.Stores columns row) :
    r.Covers columns := by
  obtain ⟨-, -, hsettles⟩ := encode_eq_ok_iff.1 hr
  have honce : ∀ c ∈ columns, ∃ p, (r.values.filter fun p => p.1.sameAs c) = [p] := by
    intro c hc
    obtain ⟨_, d, operand, hp, -⟩ := exists_of_forall₂ h c hc
    exact ⟨(d, operand), hp⟩
  have hsubset : columns.map Column.name ⊆ r.names := by
    intro n hn
    obtain ⟨c, hc, rfl⟩ := List.mem_map.1 hn
    exact mem_names_of_filter (honce c hc).choose_spec
  have hle : r.names.length ≤ (columns.map Column.name).length := by
    simp [names, hsettles.length_eq, hlength]
  have hperm := (hnodup.subperm hsubset).perm_of_length_le hle
  refine ⟨honce, fun p hp => ?_⟩
  obtain ⟨c, hc, hname⟩ :=
    List.mem_map.1 (hperm.mem_iff.2 (List.mem_map_of_mem (f := fun p => p.1.name) hp))
  obtain ⟨q, hq⟩ := exists_of_forall₂ hsettles p hp
  exact ⟨c, hc, (Column.sameAs_iff p.1 c).2 ⟨hname.symm, hq.table_eq.trans (hcolumns c hc).symm⟩⟩

/-- **What an insert with columns does with a row.** It takes the row exactly if all values fit and
the row covers the columns, and then it adds what the row stores for them. -/
theorem Insert.addRow_eq_ok_iff (hi : i.IsRegular t) (hcomplete : i.IsComplete) :
    i.addRow r = .ok i' ↔
      (∀ p ∈ r.values, p.1.Fits t p.2) ∧ r.Covers i.columns ∧
        ∃ row, List.Forall₂ r.Stores i.columns row ∧ i' = { i with rows := i.rows ++ [row] } := by
  have hne : i.columns ≠ [] := hi.complete_iff.1 hcomplete
  constructor
  · intro h
    obtain ⟨encoded, hencoded, h⟩ := bind_eq_ok.1 h
    rw [hi.table_eq] at hencoded
    simp only [List.isEmpty_eq_false_iff.2 hne, Bool.false_eq_true, if_false] at h
    split at h
    · rename_i hlength
      split at h
      · rename_i row hrow
        have hstores := (align_eq_some_iff hencoded).1 hrow
        refine ⟨(Row.exists_encode_iff.1 ⟨encoded, hencoded⟩).2.2, ?_, row, hstores,
          (pure_eq_ok.1 h).symm⟩
        exact Row.covers_of_stores hencoded hi.table_of_mem hi.nodup_names hlength hstores
      · cases h
    · cases h
  · rintro ⟨hfits, hcovers, row, hstores, rfl⟩
    have hnodup := hcovers.nodup hfits
    have hvalues : r.values ≠ [] := by
      obtain ⟨c, hc⟩ := List.exists_mem_of_ne_nil _ hne
      obtain ⟨p, hp⟩ := hcovers.once c hc
      rintro hnil
      simp [hnil] at hp
    obtain ⟨encoded, hencoded⟩ := Row.exists_encode_iff.2 ⟨hvalues, hnodup, hfits⟩
    have hlength : encoded.length = i.columns.length := by
      have hperm := (List.perm_ext_iff_of_nodup hnodup hi.nodup_names).2 hcovers.mem_names_iff
      have hsettled := (Row.encode_eq_ok_iff.1 hencoded).2.2.length_eq
      simpa [Row.names, hsettled] using hperm.length_eq
    refine bind_eq_ok.2 ⟨encoded, hi.table_eq ▸ hencoded, ?_⟩
    simp only [List.isEmpty_eq_false_iff.2 hne, Bool.false_eq_true, if_false, hlength, if_true,
      (align_eq_some_iff hencoded).2 hstores]
    rfl

/-- An insert takes a row exactly if all values fit and the row covers the columns. -/
theorem Insert.exists_addRow_iff (hi : i.IsRegular t) (hcomplete : i.IsComplete) :
    (∃ i', i.addRow r = .ok i') ↔
      r.Covers i.columns ∧ ∀ p ∈ r.values, p.1.Fits t p.2 := by
  simp only [addRow_eq_ok_iff hi hcomplete]
  refine ⟨fun ⟨_, hfits, hcovers, _⟩ => ⟨hcovers, hfits⟩, fun ⟨hcovers, hfits⟩ => ?_⟩
  obtain ⟨row, hrow⟩ := hcovers.exists_stores hfits
  exact ⟨_, hfits, hcovers, row, hrow, rfl⟩

/-- **The order of a row does not matter** to an insert that has columns. -/
theorem Insert.addRow_of_perm (hi : i.IsRegular t) (hcomplete : i.IsComplete)
    (hperm : r.values.Perm r'.values) (h : i.addRow r = .ok i') : i.addRow r' = .ok i' := by
  rw [addRow_eq_ok_iff hi hcomplete] at h ⊢
  obtain ⟨hfits, hcovers, row, hstores, rfl⟩ := h
  refine ⟨fun p hp => hfits p (hperm.mem_iff.2 hp), hcovers.of_perm hperm, row, ?_, rfl⟩
  exact hstores.imp fun c e => (Row.stores_iff_of_perm hperm).1

/-- An insert without columns takes every row that is encoded; the row brings its own columns. -/
theorem Insert.addRow_ofTable_eq_ok_iff : (ofTable t).addRow r = .ok i' ↔
    ∃ encoded, r.encode t = .ok encoded ∧
      i' = ⟨t, encoded.map Prod.fst, [encoded.map Prod.snd], []⟩ := by
  rw [addRow, bind_eq_ok]
  exact exists_congr fun encoded => and_congr Iff.rfl (pure_eq_ok.trans eq_comm)

/-- An insert has the columns of the first row that is added, in their order. -/
theorem Insert.columns_of_run {steps : List Step} {first : Row} {later : List Row}
    (h : Run Succeeds i steps i') (hi : i.IsRegular t) (hnew : ¬ i.IsComplete)
    (hrows : steps.filterMap Step.row? = first :: later) :
    i'.columns = first.values.map Prod.fst := by
  induction h with
  | nil => cases hrows
  | @cons i next i' st steps h hrest ih =>
    have hnext := (hi.step h).1
    cases st with
    | addRow r =>
      obtain ⟨rfl, -⟩ := List.cons.inj hrows
      obtain ⟨encoded, hencoded, haligned⟩ := addRow_eq_ok h
      obtain ⟨-, rfl⟩ | ⟨hne, -⟩ := haligned
      · rw [(hnext.run hrest).2.columns_eq (by simp [IsComplete])]
        exact Row.columns_of_encode hencoded
      · exact absurd (hi.complete_iff.2 hne) hnew
    | returningColumns columns =>
      obtain ⟨-, rfl⟩ := returningColumns_eq_ok h
      exact ih hnext hnew hrows

end Inserts

/-! ### Aligned rows -/

/-- An insert has the columns of the first of some rows, and for each row, in their order, what it
stores for each column, in the order of the columns. -/
structure Insert.IsAligned (i : Insert) (rows : List Row) : Prop where
  columns_eq : ∀ first later, rows = first :: later → i.columns = first.values.map Prod.fst
  stores : List.Forall₂ (fun r row => List.Forall₂ r.Stores i.columns row) rows i.rows

theorem Insert.isAligned_of_run {t : Table} {steps : List Step} {i : Insert}
    (h : Run Succeeds (ofTable t) steps i) : i.IsAligned (steps.filterMap Step.row?) := by
  refine ⟨fun first later => columns_of_run h (isRegular_ofTable t) (absurd rfl), ?_⟩
  refine (reflects_of_run h).rows.imp fun r row ⟨encoded, hencoded, hrow⟩ => ?_
  exact (align_eq_some_iff hencoded).1 hrow

/-- Where a row gives values to columns of one declaration of a table, the operand for a column of
that declaration is encoded for this very column. -/
theorem Row.stores_iff_of_mem_columns {t : Table} {r : Row} {c : Column} {e : Expr}
    (hr : ∀ p ∈ r.values, p.1 ∈ t.columns) (hc : c ∈ t.columns) : r.Stores c e ↔
      ∃ operand, (r.values.filter fun p => p.1.sameAs c) = [(c, operand)] ∧
        (Expr.column c).resolve operand = .ok e := by
  refine ⟨fun ⟨d, operand, hfilter, hresolve⟩ => ?_, fun h => ⟨c, h⟩⟩
  obtain ⟨hmem, hsame⟩ := List.mem_filter.1 (hfilter ▸ List.mem_singleton_self (d, operand))
  obtain rfl := Table.eq_of_mem_columns (hr _ hmem) hc ((Column.sameAs_iff d c).1 hsame).1
  exact ⟨operand, hfilter, hresolve⟩

/-- **Rows are aligned with the columns of an insert.** However an insert is built, its columns are
those of the first row, in their order, and each row has at the place of each column what the row
stores for it: the only operand that it gives to the column, encoded for that column as the row
names it, which is the very column of the insert where both are of one declaration. An insert that
has a row takes another one exactly if that row gives a value to each of its columns once and to no
others, and each value by itself is one that the table takes; and it makes no difference in which
order the row gives them. -/
theorem Insert.isAligned_of_runs (t : Table) :
    (∀ (rows : List Row) (i : Insert), ofRows t rows = .ok i → i.IsAligned rows) ∧
      (∀ (rows : List Row) (i : Insert), ofRows t rows = .ok i ↔
        rows ≠ [] ∧ Run Succeeds (.ofTable t) (rows.map .addRow) i) ∧
      (∀ (steps : List Step) (i : Insert), Run Succeeds (.ofTable t) steps i →
        i.IsAligned (steps.filterMap Step.row?) ∧
          (i.IsComplete → ∀ r : Row,
            ((∃ i', i.addRow r = .ok i') ↔
              (∀ c ∈ i.columns, ∃ p, (r.values.filter fun p => p.1.sameAs c) = [p]) ∧
              (∀ p ∈ r.values, ∃ c ∈ i.columns, p.1.sameAs c = true) ∧
              ∀ p ∈ r.values, p.1.Fits t p.2) ∧
            ∀ r' : Row, r.values.Perm r'.values →
              ∀ i', i.addRow r = .ok i' ↔ i.addRow r' = .ok i')) ∧
      (∀ (c : Column) (operand : Operand), c.Fits t operand ↔
        ∃ i, (ofTable t).addRow (Row.empty.set c operand) = .ok i) ∧
      ∀ (r : Row) (c : Column) (e : Expr), (∀ p ∈ r.values, p.1 ∈ t.columns) → c ∈ t.columns →
        (r.Stores c e ↔ ∃ operand, (r.values.filter fun p => p.1.sameAs c) = [(c, operand)] ∧
          (Expr.column c).resolve operand = .ok e) := by
  refine ⟨fun rows i h => ?_, fun rows i => ofRows_eq_ok_iff, fun steps i h => ⟨isAligned_of_run h,
    fun hcomplete r => ⟨?_, fun r' hperm i' => ?_⟩⟩, fun c operand => ?_,
    fun r c e => Row.stores_iff_of_mem_columns⟩
  · have haligned := isAligned_of_run (ofRows_eq_ok_iff.1 h).2
    rwa [List.filterMap_map, show Step.row? ∘ Step.addRow = some from rfl, List.filterMap_some]
      at haligned
  · have hi := ((isRegular_ofTable t).run h).1
    rw [exists_addRow_iff hi hcomplete, ← and_assoc]
    exact and_congr ⟨fun h => ⟨h.once, h.only⟩, fun h => ⟨h.1, h.2⟩⟩ Iff.rfl
  · have hi := ((isRegular_ofTable t).run h).1
    exact ⟨addRow_of_perm hi hcomplete hperm, addRow_of_perm hi hcomplete hperm.symm⟩
  · simp only [addRow_ofTable_eq_ok_iff]
    rw [exists_comm]
    simp [Row.exists_encode_iff, Row.empty, Row.set, Row.names]

/-! ### Goods in stock -/

/-- A table of goods in stock: their titles, and their prices, which are low unless given. -/
def stock : Table where
  ref := ⟨none, "stock", none⟩
  decls := [⟨"title", .text, false, none⟩, ⟨"price", .integer, false, some (.int 1)⟩]
  decls_ne_nil := by decide
  nodup_names := by decide
  hasSoundDefault := by
    refine List.forall_mem_cons.2 ⟨?_, List.forall_mem_singleton.2 ?_⟩
    · rintro v ⟨⟩
    · rintro v ⟨⟩
      exact ⟨by simp, rfl⟩

/-- The title of goods in stock. -/
def stockTitle : Column :=
  ⟨stock.ref, ⟨"title", .text, false, none⟩⟩

/-- The price of goods in stock. -/
def stockPrice : Column :=
  ⟨stock.ref, ⟨"price", .integer, false, some (.int 1)⟩⟩

/-- The row of a title and a price. -/
def titleFirst (title : String) (n : Int64) : Row :=
  (Row.empty.set stockTitle (.value (.text title))).set stockPrice (.value (.int n))

/-- The row of a price and a title. -/
def priceFirst (title : String) (n : Int64) : Row :=
  (Row.empty.set stockPrice (.value (.int n))).set stockTitle (.value (.text title))

/-- A title and a price as they are put into a statement. -/
def stocked (title : String) (n : Int64) : List Expr :=
  [.literal (.text title) (some .text), .literal (.int n) (some .integer)]

theorem isAligned_of_runs_stock :
    ∃ i, Insert.ofRows stock [titleFirst "pen" 5, priceFirst "ink" 7] = .ok i ∧
      i.IsAligned [titleFirst "pen" 5, priceFirst "ink" 7] ∧ i.IsComplete ∧
      i.rows = [stocked "pen" 5, stocked "ink" 7] ∧
      (∀ i', i.addRow (titleFirst "nib" 3) = .ok i' ↔ i.addRow (priceFirst "nib" 3) = .ok i') ∧
      (¬ ∃ i', i.addRow (Row.empty.set stockPrice (.value (.int 3))) = .ok i') ∧
      stockTitle.Fits stock (.value (.text "pen")) ∧
      (titleFirst "pen" 5).Stores stockTitle (.literal (.text "pen") (some .text)) := by
  obtain ⟨haligned, hruns, hrun, hfits, hdeclared⟩ := Insert.isAligned_of_runs stock
  let i : Insert :=
    ⟨stock, [stockTitle, stockPrice], [stocked "pen" 5, stocked "ink" 7], []⟩
  have hi : Insert.ofRows stock [titleFirst "pen" 5, priceFirst "ink" 7] = .ok i := rfl
  have hcomplete : i.IsComplete := List.cons_ne_nil _ _
  have hrow := (hrun _ i ((hruns _ i).1 hi).2).2 hcomplete
  refine ⟨i, hi, haligned _ i hi, hcomplete, rfl, (hrow _).2 _ (.swap _ _ _), fun h => ?_,
    (hfits _ _).2 ⟨_, rfl⟩, (hdeclared _ _ _ ?_ (.head _)).2 ⟨_, rfl, rfl⟩⟩
  · obtain ⟨p, hp⟩ := ((hrow _).1.1 h).1 stockTitle (.head _)
    cases hp
  · exact List.forall_mem_cons.2 ⟨.head _, List.forall_mem_singleton.2 (.tail _ (.head _))⟩

/-- Another declaration of the table of goods, with prices of any size. -/
def finelyPricedGoods : Table where
  ref := goods.ref
  decls := [⟨"price", .double, true, none⟩]
  decls_ne_nil := by decide
  nodup_names := by decide
  hasSoundDefault := by
    rintro d (_ | ⟨_, ⟨⟩⟩) v ⟨⟩

/-- The price of goods, of any size. -/
def finePrice : Column :=
  ⟨finelyPricedGoods.ref, ⟨"price", .double, true, none⟩⟩

/-- **A value may be encoded for another column than it is stored for**, when two tables with one
reference declare that column with different types. -/
theorem not_encodedForColumn_finePrice :
    ∃ i, Insert.ofRows goods [Row.empty.set price (.value (.int 5)),
        Row.empty.set finePrice (.value (.int 7))] = .ok i ∧
      i.columns = [price] ∧ finePrice ∈ finelyPricedGoods.columns ∧
      ¬ List.Forall₂ (fun (r : Row) row => List.Forall₂ (fun c e => ∃ d operand,
          (r.values.filter fun p => p.1.sameAs c) = [(d, operand)] ∧
            (Expr.column c).resolve operand = .ok e) i.columns row)
        [Row.empty.set price (.value (.int 5)), Row.empty.set finePrice (.value (.int 7))] i.rows := by
  refine ⟨_, rfl, rfl, .head _, fun h => ?_⟩
  obtain ⟨_, _, -, h, hrows⟩ := List.forall₂_cons_left_iff.1 h
  obtain ⟨row, _, hrow, -, rfl⟩ := List.forall₂_cons_left_iff.1 h
  obtain ⟨e, _, ⟨d, operand, hfilter, hresolve⟩, -, rfl⟩ := List.forall₂_cons_left_iff.1 hrow
  cases hfilter
  cases hresolve
  cases hrows

end TypedSql
