import TypedSql.Proofs.Masking
import TypedSql.Proofs.Reading
import TypedSql.Proofs.Semantics

/-!
# Runs of inserts and updates

Inserts, updates and deletes are built by steps, each of which makes a new state out of the old one.
A `Run` is a list of steps that succeed one after another. For each kind of statement, one lemma
says what one step makes of a state, and what holds of all runs follows by induction:

* an insert has different columns and rows as wide as these (`Insert.IsRegular`), and its rows are
  those that were added, in order (`Insert.Reflects`);
* an update assigns different columns (`Update.IsRegular`), each the value that it was given last,
  and joins all conditions that were attached (`Update.Reflects`).
-/

namespace TypedSql

/-! ### Runs -/

/-- Steps that succeed one after another, from a state to a state. -/
inductive Run {σ τ : Type} (succeeds : σ → τ → σ → Prop) : σ → List τ → σ → Prop
  | nil (s : σ) : Run succeeds s [] s
  | cons {s s' s'' : σ} {st : τ} {steps : List τ} (h : succeeds s st s')
      (hrest : Run succeeds s' steps s'') : Run succeeds s (st :: steps) s''

namespace Run

variable {σ τ β : Type} {succeeds : σ → τ → σ → Prop} {s s' s'' : σ} {steps steps' : List τ}

theorem nil_iff : Run succeeds s [] s' ↔ s = s' := by
  refine ⟨fun h => ?_, fun h => h ▸ .nil s⟩
  cases h
  rfl

theorem cons_iff {st : τ} :
    Run succeeds s (st :: steps) s'' ↔ ∃ s', succeeds s st s' ∧ Run succeeds s' steps s'' := by
  refine ⟨fun h => ?_, fun ⟨_, h, hrest⟩ => .cons h hrest⟩
  obtain _ | ⟨h, hrest⟩ := h
  exact ⟨_, h, hrest⟩

theorem append (h : Run succeeds s steps s') (h' : Run succeeds s' steps' s'') :
    Run succeeds s (steps ++ steps') s'' := by
  induction h with
  | nil => exact h'
  | cons hstep _ ih => exact .cons hstep (ih h')

/-- A run of two lists of steps passes through a state between them. -/
theorem exists_of_append (h : Run succeeds s (steps ++ steps') s'') :
    ∃ s', Run succeeds s steps s' ∧ Run succeeds s' steps' s'' := by
  induction steps generalizing s with
  | nil => exact ⟨s, .nil s, h⟩
  | cons st steps ih =>
    obtain ⟨_, hstep, hrest⟩ := cons_iff.1 h
    obtain ⟨s', hbefore, hafter⟩ := ih hrest
    exact ⟨s', .cons hstep hbefore, hafter⟩

/-- What steps preserve, runs preserve. -/
theorem invariant {P : σ → Prop} (hstep : ∀ {s st s'}, P s → succeeds s st s' → P s')
    (h : Run succeeds s steps s') (hs : P s) : P s' := by
  induction h with
  | nil => exact hs
  | cons h _ ih => exact ih (hstep hs h)

/-- A list that each step appends to has grown by what all steps append. -/
theorem view_eq (view : σ → List β) {added : τ → List β}
    (hstep : ∀ {s st s'}, succeeds s st s' → view s' = view s ++ added st)
    (h : Run succeeds s steps s') : view s' = view s ++ steps.flatMap added := by
  induction h with
  | nil => simp
  | cons h _ ih => rw [ih, hstep h, List.flatMap_cons, List.append_assoc]

/-- What some steps bring about and none undoes holds after a run if it held before, or if such a
step is part of the run. -/
theorem reached_iff {P : σ → Prop} {marks : τ → Prop}
    (hstep : ∀ {s st s'}, succeeds s st s' → (P s' ↔ P s ∨ marks st))
    (h : Run succeeds s steps s') : P s' ↔ P s ∨ ∃ st ∈ steps, marks st := by
  induction h with
  | nil => simp
  | cons h _ ih => rw [ih, hstep h, List.exists_mem_cons_iff, or_assoc]

end Run

/-! ### Conditions -/

/-- The conditions that a clause joins. -/
def conjuncts (condition? : Option Expr) : List Expr :=
  condition?.toList.flatMap (Expr.partsFor .and)

namespace Expr

/-- A condition holds in a row, under an interpretation of what its text is read as. -/
def Holds {ρ : Type} (I : Interpretation ρ) (x : ρ) (e : Expr) : Prop :=
  ((e.reading false).eval I x).truth = some true

theorem conjuncts_attached (condition? : Option Expr) (e : Expr) :
    conjuncts (some (attached condition? e)) = conjuncts condition? ++ e.partsFor .and := by
  cases condition? <;> simp [conjuncts, attached, partsFor]

end Expr

theorem Connective.join_and_eq_true {a b : Truth} :
    Connective.and.join a b = some true ↔ a = some true ∧ b = some true := by
  rcases a with _ | _ | _ <;> rcases b with _ | _ | _ <;> decide

/-- All of some conditions hold if each one does. -/
theorem Connective.joinAll_and_eq_true {ts : List Truth} :
    Connective.and.joinAll ts = some true ↔ ∀ t ∈ ts, t = some true := by
  induction ts with
  | nil => simp [joinAll, Connective.unit]
  | cons t ts ih =>
    have hstep : Connective.and.joinAll (t :: ts) =
        Connective.and.join t (Connective.and.joinAll ts) := rfl
    rw [hstep, join_and_eq_true, ih, List.forall_mem_cons]

section Holds

variable {ρ : Type} (I : Interpretation ρ) (x : ρ)

theorem Truth.truth_value (t : Truth) : t.value.truth = t := by
  cases t <;> rfl

theorem Expr.holds_junction (parts : List Expr) :
    (Expr.junction .and parts).Holds I x ↔ ∀ part ∈ parts, part.Holds I x := by
  match parts with
  | [] => simp [Holds, reading, SqlExpr.eval, Value.truth, Connective.unit]
  | [part] => simp [Holds, reading, readingsOf, SqlExpr.chained]
  | part :: second :: rest =>
    have hmeanings : ((Expr.junction .and (part :: second :: rest)).reading false).eval I x =
        (Connective.and.joinAll ((part :: second :: rest).map fun e =>
          ((e.reading false).eval I x).truth)).value := by
      simp [reading, readingsOf_eq, SqlExpr.chained, SqlExpr.eval, meaningsOf_eq, Function.comp_def]
    rw [Holds, hmeanings, Truth.truth_value, Connective.joinAll_and_eq_true, List.forall_mem_map]
    rfl

/-- A condition holds if all do that it adds to a chain. -/
theorem Expr.holds_partsFor (e : Expr) :
    (∀ part ∈ e.partsFor .and, part.Holds I x) ↔ e.Holds I x := by
  unfold partsFor
  split
  · split
    · rename_i hkind
      rw [hkind, holds_junction]
    · simp
  · simp

theorem holds_conjuncts (condition? : Option Expr) :
    (∀ e ∈ conjuncts condition?, e.Holds I x) ↔ ∀ e ∈ condition?, e.Holds I x := by
  cases condition? with
  | none => simp [conjuncts]
  | some e => simpa [conjuncts] using e.holds_partsFor I x

/-- A clause that joins the conditions of steps holds in the rows where these all do. -/
theorem holds_iff_of_conjuncts_eq {τ : Type} {steps : List τ} {given? : τ → Option Expr}
    {joined? : Option Expr}
    (h : conjuncts joined? = steps.flatMap fun st => conjuncts (given? st)) :
    (∀ e ∈ joined?, e.Holds I x) ↔ ∀ st ∈ steps, ∀ e ∈ given? st, e.Holds I x := by
  rw [← holds_conjuncts, h, List.forall_mem_flatMap]
  exact forall₂_congr fun st _ => holds_conjuncts I x (given? st)

end Holds

/-! ### Inserts -/

namespace Insert

/-- A step of an insert succeeds. -/
def Succeeds (i : Insert) (st : Step) (i' : Insert) : Prop :=
  i.step st = .ok i'

/-- The row that a step adds. -/
def Step.row? : Step → Option Row
  | .addRow r => some r
  | .returningColumns _ => none

/-- The columns of an insert are different columns of its table, its rows are as wide as these, and
it has columns as soon as it has rows. -/
structure IsRegular (t : Table) (i : Insert) : Prop where
  table_eq : i.table = t
  complete_iff : i.IsComplete ↔ i.columns ≠ []
  table_of_mem : ∀ c ∈ i.columns, c.table = t.ref
  nodup_names : (i.columns.map Column.name).Nodup
  length_eq : ∀ row ∈ i.rows, row.length = i.columns.length

/-- The row of an insert that holds what was given for the columns. -/
def Gives (t : Table) (columns : List Column) (r : Row) (row : List Expr) : Prop :=
  ∃ values, r.encode t = .ok values ∧ align columns values = some row

/-- An insert has the rows that steps have added, in their order. -/
structure Reflects (t : Table) (steps : List Step) (i : Insert) : Prop where
  complete_iff : i.IsComplete ↔ ∃ r, .addRow r ∈ steps
  rows : List.Forall₂ (Gives t i.columns) (steps.filterMap Step.row?) i.rows

/-- An insert has the columns and the rows of an earlier one. -/
structure Extends (i i' : Insert) : Prop where
  columns_eq : i.IsComplete → i'.columns = i.columns
  rows : i.rows <+: i'.rows

end Insert

section Rows

variable {t : Table}

/-- The columns of a row that is encoded have different names. -/
theorem Row.nodup_of_encodeFrom {seen : List Column} {values : List (Column × Operand)}
    {encoded : List (Column × Expr)} (hseen : ∀ d ∈ seen, d.table = t.ref)
    (h : encodeFrom t seen values = .ok encoded) :
    (encoded.map fun p => p.1.name).Nodup ∧
      ∀ p ∈ encoded, ∀ d ∈ seen, d.name ≠ p.1.name := by
  induction values generalizing seen encoded with
  | nil =>
    cases h
    exact ⟨.nil, List.forall_mem_nil _⟩
  | cons value values ih =>
    obtain ⟨c, operand⟩ := value
    obtain ⟨_, hin, h⟩ := bind_eq_ok.1 h
    split at h
    · cases h
    · rename_i hnew
      obtain ⟨e, -, h⟩ := bind_eq_ok.1 h
      obtain ⟨rest, hrest, h⟩ := bind_eq_ok.1 h
      obtain rfl := pure_eq_ok.1 h
      have hc : c.table = t.ref := by simpa using Column.expectIn_eq_ok hin
      obtain ⟨hnodup, hfresh⟩ := ih (List.forall_mem_cons.2 ⟨hc, hseen⟩) hrest
      refine ⟨?_, List.forall_mem_cons.2 ⟨fun d hd hname => ?_, fun p hp d hd => ?_⟩⟩
      · rw [List.map_cons, List.nodup_cons]
        refine ⟨fun hmem => ?_, hnodup⟩
        obtain ⟨p, hp, hname⟩ := List.mem_map.1 hmem
        exact hfresh p hp c (.head _) hname.symm
      · refine hnew (List.any_eq_true.2 ⟨d, hd, ?_⟩)
        exact (Column.sameAs_iff d c).2 ⟨hname, (hseen d hd).trans hc.symm⟩
      · exact hfresh p hp d (List.mem_cons_of_mem _ hd)

theorem Row.nodup_of_encode {r : Row} {encoded : List (Column × Expr)}
    (h : r.encode t = .ok encoded) : (encoded.map fun p => p.1.name).Nodup := by
  unfold encode at h
  split at h
  · cases h
  · exact (nodup_of_encodeFrom (List.forall_mem_nil _) h).1

/-- Among columns of different names, a column is found by itself. -/
theorem find?_sameAs {values : List (Column × Expr)}
    (hnodup : (values.map fun p => p.1.name).Nodup) {p : Column × Expr} (hp : p ∈ values) :
    (values.find? fun q => q.1.sameAs p.1) = some p := by
  induction values with
  | nil => cases hp
  | cons q values ih =>
    rw [List.map_cons, List.nodup_cons] at hnodup
    rcases List.mem_cons.1 hp with rfl | hp
    · exact List.find?_cons_of_pos (by simp)
    · have hne : q.1.name ≠ p.1.name := fun hname =>
        hnodup.1 (List.mem_map.2 ⟨p, hp, hname.symm⟩)
      rw [List.find?_cons_of_neg (by simp [hne])]
      exact ih hnodup.2 hp

/-- Looking up the first parts of pairs that a function relates gives the second parts. -/
theorem mapM_map_fst {α β : Type} {f : α → Option β} {ps : List (α × β)}
    (h : ∀ p ∈ ps, f p.1 = some p.2) : (ps.map Prod.fst).mapM f = some (ps.map Prod.snd) := by
  induction ps with
  | nil => rfl
  | cons p ps ih =>
    obtain ⟨hp, hps⟩ := List.forall_mem_cons.1 h
    rw [List.map_cons, List.mapM_cons, hp, ih hps]
    rfl

/-- The expressions of a row are in the order of its own columns. -/
theorem Insert.align_self {values : List (Column × Expr)}
    (hnodup : (values.map fun p => p.1.name).Nodup) :
    align (values.map Prod.fst) values = some (values.map Prod.snd) :=
  mapM_map_fst fun p hp => by rw [find?_sameAs hnodup hp, Option.map_some]

end Rows

namespace Insert

section Runs

variable {t : Table} {i i' i'' : Insert} {r : Row} {rows : List Row} {st : Step}
  {steps : List Step}

theorem Extends.refl (i : Insert) : i.Extends i :=
  ⟨fun _ => rfl, List.prefix_rfl⟩

theorem Extends.isComplete (h : i.Extends i') (hi : i.IsComplete) : i'.IsComplete := by
  intro hnil
  have hprefix := h.rows
  rw [hnil, List.prefix_nil] at hprefix
  exact hi hprefix

theorem Extends.trans (h : i.Extends i') (h' : i'.Extends i'') : i.Extends i'' := by
  refine ⟨fun hi => ?_, h.rows.trans h'.rows⟩
  rw [h'.columns_eq (h.isComplete hi), h.columns_eq hi]

theorem isRegular_ofTable (t : Table) : (ofTable t).IsRegular t :=
  ⟨rfl, by simp [IsComplete, ofTable], List.forall_mem_nil _, .nil, List.forall_mem_nil _⟩

/-- A row that is added comes last; the first one brings the columns. -/
theorem IsRegular.addRow (hi : i.IsRegular t) (h : i.addRow r = .ok i') :
    i'.IsRegular t ∧ (i.IsComplete → i'.columns = i.columns) ∧
      ∃ row, Gives t i'.columns r row ∧ i'.rows = i.rows ++ [row] := by
  obtain ⟨values, hvalues, haligned⟩ := addRow_eq_ok h
  rw [hi.table_eq] at hvalues
  obtain ⟨hempty, rfl⟩ | ⟨hne, row, hrow, rfl⟩ := haligned
  -- Without columns there are no rows yet, so that the new row alone has to be as wide as they are.
  · have hnodup := Row.nodup_of_encode hvalues
    have hincomplete : ¬ i.IsComplete := fun hcomplete => hi.complete_iff.1 hcomplete hempty
    have hrows : i.rows = [] := not_not.1 hincomplete
    refine ⟨⟨hi.table_eq, ?_, ?_, ?_, ?_⟩, fun h => absurd h hincomplete, _,
      ⟨values, hvalues, align_self hnodup⟩, rfl⟩
    · simp [IsComplete, Row.encode_ne_nil hvalues]
    · exact List.forall_mem_map.2 fun p hp => (Row.encode_eq_ok hvalues p hp).1
    · rwa [List.map_map]
    · simp [hrows]
  · have hlength : row.length = i.columns.length := (align_eq_some hrow).length_eq.symm
    refine ⟨⟨hi.table_eq, ?_, hi.table_of_mem, hi.nodup_names, ?_⟩, fun _ => rfl, row,
      ⟨values, hvalues, hrow⟩, rfl⟩
    · simp [IsComplete, hne]
    · exact List.forall_mem_append.2 ⟨hi.length_eq, List.forall_mem_singleton.2 hlength⟩

/-- **A step keeps an insert regular**, with all that it has. -/
theorem IsRegular.step (hi : i.IsRegular t) (h : i.Succeeds st i') :
    i'.IsRegular t ∧ i.Extends i' := by
  cases st with
  | addRow r =>
    obtain ⟨hregular, hcolumns, row, -, hrows⟩ := hi.addRow h
    exact ⟨hregular, hcolumns, hrows ▸ List.prefix_append _ _⟩
  | returningColumns columns =>
    obtain ⟨-, rfl⟩ := returningColumns_eq_ok h
    exact ⟨⟨hi.table_eq, hi.complete_iff, hi.table_of_mem, hi.nodup_names, hi.length_eq⟩,
      fun _ => rfl, List.prefix_rfl⟩

theorem IsRegular.run (hi : i.IsRegular t) (h : Run Succeeds i steps i') :
    i'.IsRegular t ∧ i.Extends i' := by
  refine h.invariant (P := fun i' => i'.IsRegular t ∧ i.Extends i') ?_ ⟨hi, .refl i⟩
  intro j st j' hj hstep
  obtain ⟨hregular, hextends⟩ := hj.1.step hstep
  exact ⟨hregular, hj.2.trans hextends⟩

/-- The rows that steps add are the rows that the insert has more. -/
theorem IsRegular.rows_of_run (hi : i.IsRegular t) (h : Run Succeeds i steps i') :
    ∃ added, i'.rows = i.rows ++ added ∧
      List.Forall₂ (Gives t i'.columns) (steps.filterMap Step.row?) added := by
  induction h with
  | nil i => exact ⟨[], (List.append_nil _).symm, .nil⟩
  | @cons i next i' st steps h hrest ih =>
    have hnext := (hi.step h).1
    obtain ⟨added, hadded, hgives⟩ := ih hnext
    cases st with
    | addRow r =>
      obtain ⟨-, -, row, hrow, hrows⟩ := hi.addRow h
      -- From now on the columns stay, so the row is aligned with those of the last state.
      have hcomplete : next.IsComplete := by simp [IsComplete, hrows]
      rw [← (hnext.run hrest).2.columns_eq hcomplete] at hrow
      exact ⟨row :: added, by rw [hadded, hrows, List.append_assoc]; rfl, .cons hrow hgives⟩
    | returningColumns columns =>
      obtain ⟨-, rfl⟩ := returningColumns_eq_ok h
      exact ⟨added, hadded, hgives⟩

/-- An insert is complete as soon as a row was added. -/
theorem isComplete_iff_of_run (h : Run Succeeds i steps i') :
    i'.IsComplete ↔ i.IsComplete ∨ ∃ st ∈ steps, ∃ r, st = .addRow r := by
  refine h.reached_iff fun {i st i'} h => ?_
  cases st with
  | addRow r =>
    obtain ⟨_, -, ⟨-, rfl⟩ | ⟨-, _, -, rfl⟩⟩ := addRow_eq_ok h <;> simp [IsComplete]
  | returningColumns columns =>
    obtain ⟨-, rfl⟩ := returningColumns_eq_ok h
    simp [IsComplete]

/-- **An insert has the rows of its steps.** -/
theorem reflects_of_run (h : Run Succeeds (ofTable t) steps i) : i.Reflects t steps := by
  obtain ⟨added, hrows, hgives⟩ := (isRegular_ofTable t).rows_of_run h
  obtain rfl : i.rows = added := hrows
  refine ⟨?_, hgives⟩
  rw [isComplete_iff_of_run h]
  exact ⟨fun h => h.elim (absurd rfl) fun ⟨_, hst, r, hr⟩ => ⟨r, hr ▸ hst⟩,
    fun ⟨r, hr⟩ => .inr ⟨_, hr, r, rfl⟩⟩

theorem addRows_eq_ok_iff :
    i.addRows rows = .ok i' ↔ Run Succeeds i (rows.map .addRow) i' := by
  induction rows generalizing i with
  | nil =>
    rw [List.map_nil, Run.nil_iff, addRows, Except.ok.injEq]
  | cons r rows ih =>
    rw [List.map_cons, Run.cons_iff, addRows, bind_eq_ok]
    exact exists_congr fun next => and_congr Iff.rfl ih

/-- Some rows at once are the rows one after another. -/
theorem ofRows_eq_ok_iff :
    ofRows t rows = .ok i ↔ rows ≠ [] ∧ Run Succeeds (ofTable t) (rows.map .addRow) i := by
  rw [← addRows_eq_ok_iff]
  cases rows <;> simp [ofRows]

end Runs

end Insert

/-! ### Updates -/

namespace Update

/-- A step of an update succeeds. -/
def Succeeds (u : Update) (st : Step) (u' : Update) : Prop :=
  u.step st = .ok u'

/-- The condition that a step attaches. -/
def Step.condition? : Step → Option Expr
  | .filterBy e => some e
  | .set _ _ | .returningColumns _ => none

/-- An update assigns different columns of its table. -/
structure IsRegular (t : Table) (u : Update) : Prop where
  table_eq : u.table = t
  table_of_mem : ∀ a ∈ u.assignments, a.1.table = t.ref
  nodup_names : (u.assignments.map fun a => a.1.name).Nodup

/-- An update assigns to each column what a step has given it last, and joins the conditions that
steps have attached. -/
structure Reflects (t : Table) (steps : List Step) (u : Update) : Prop where
  complete_iff : u.IsComplete ↔ ∃ c operand, .set c operand ∈ steps
  assigned : ∀ earlier c operand later, steps = earlier ++ .set c operand :: later →
    (∀ d operand', .set d operand' ∈ later → d.sameAs c = false) →
      ∃ a ∈ u.assignments, a.1.sameAs c = true ∧ c.accept .set [t.ref] operand = .ok a.2
  conjuncts_eq : conjuncts u.filter? = steps.flatMap fun st => conjuncts st.condition?
  holds_iff : ∀ {ρ : Type} (I : Interpretation ρ) (x : ρ),
    (∀ e ∈ u.filter?, e.Holds I x) ↔ ∀ e, .filterBy e ∈ steps → e.Holds I x

/-- An update has the columns, in their places, and the conditions of an earlier one. -/
structure Extends (u u' : Update) : Prop where
  columns : u.assignments.map Prod.fst <+: u'.assignments.map Prod.fst
  conjuncts : conjuncts u.filter? <+: conjuncts u'.filter?

section Put

variable {c : Column} {e : Expr} {a : Column × Expr} {assignments : List (Column × Expr)}

/-- A column is assigned in the place of the same column, or at the end where it is new. -/
theorem map_fst_put (c : Column) (e : Expr) (assignments : List (Column × Expr)) :
    (put c e assignments).map Prod.fst = assignments.map Prod.fst ∨
      (∀ a ∈ assignments, a.1.sameAs c = false) ∧
        put c e assignments = assignments ++ [(c, e)] := by
  induction assignments with
  | nil => exact .inr ⟨List.forall_mem_nil _, rfl⟩
  | cons a assignments ih =>
    obtain ⟨d, f⟩ := a
    unfold put
    split
    · exact .inl rfl
    · rename_i hne
      obtain hsame | ⟨hnew, hlast⟩ := ih
      · exact .inl (congrArg (d :: ·) hsame)
      · exact .inr ⟨List.forall_mem_cons.2 ⟨Bool.eq_false_iff.2 hne, hnew⟩, congrArg _ hlast⟩

theorem exists_mem_put (c : Column) (e : Expr) (assignments : List (Column × Expr)) :
    ∃ a ∈ put c e assignments, a.1.sameAs c = true ∧ a.2 = e := by
  induction assignments with
  | nil => exact ⟨(c, e), .head _, by simp, rfl⟩
  | cons a assignments ih =>
    obtain ⟨d, f⟩ := a
    unfold put
    split
    · rename_i hsame
      exact ⟨(d, e), .head _, hsame, rfl⟩
    · obtain ⟨a, ha, h⟩ := ih
      exact ⟨a, List.mem_cons_of_mem _ ha, h⟩

/-- Assigning a column leaves the other columns alone. -/
theorem mem_put_of_ne (ha : a ∈ assignments) (hne : a.1.sameAs c = false) :
    a ∈ put c e assignments := by
  induction assignments with
  | nil => cases ha
  | cons b assignments ih =>
    obtain ⟨d, f⟩ := b
    unfold put
    split
    · rename_i hsame
      rcases List.mem_cons.1 ha with rfl | ha
      · simp [hsame] at hne
      · exact List.mem_cons_of_mem _ ha
    · rcases List.mem_cons.1 ha with rfl | ha
      · exact .head _
      · exact List.mem_cons_of_mem _ (ih ha)

end Put

section Runs

variable {t : Table} {u u' u'' : Update} {st : Step} {steps : List Step} {a : Column × Expr}

theorem Extends.refl (u : Update) : u.Extends u :=
  ⟨List.prefix_rfl, List.prefix_rfl⟩

theorem Extends.trans (h : u.Extends u') (h' : u'.Extends u'') : u.Extends u'' :=
  ⟨h.columns.trans h'.columns, h.conjuncts.trans h'.conjuncts⟩

theorem isRegular_ofTable (t : Table) : (ofTable t).IsRegular t :=
  ⟨rfl, List.forall_mem_nil _, .nil⟩

/-- An update joins a condition that is attached to those that it has. -/
theorem conjuncts_of_step (h : u.Succeeds st u') :
    conjuncts u'.filter? = conjuncts u.filter? ++ conjuncts st.condition? := by
  cases st with
  | set c operand =>
    obtain ⟨-, e, -, rfl⟩ := set_eq_ok h
    exact (List.append_nil _).symm
  | filterBy e =>
    obtain ⟨-, -, filter, hattach, rfl⟩ := filterBy_eq_ok h
    rw [Expr.attach_eq_attached hattach, Expr.conjuncts_attached]
    simp [conjuncts, Step.condition?]
  | returningColumns columns =>
    obtain ⟨-, rfl⟩ := returningColumns_eq_ok h
    exact (List.append_nil _).symm

/-- **A step keeps an update regular**, with all that it has. -/
theorem IsRegular.step (hu : u.IsRegular t) (h : u.Succeeds st u') :
    u'.IsRegular t ∧ u.Extends u' := by
  have hconjuncts : conjuncts u.filter? <+: conjuncts u'.filter? :=
    conjuncts_of_step h ▸ List.prefix_append _ _
  cases st with
  | set c operand =>
    obtain ⟨hc, e, -, rfl⟩ := set_eq_ok h
    rw [hu.table_eq] at hc
    have htable : ∀ a ∈ put c e u.assignments, a.1.table = t.ref := fun a ha => by
      obtain ha | ⟨-, rfl | ⟨-, f, hf⟩⟩ := mem_put ha
      · exact hu.table_of_mem a ha
      · exact hc
      · exact hu.table_of_mem (a.1, f) hf
    obtain hsame | ⟨hnew, hlast⟩ := map_fst_put c e u.assignments
    · refine ⟨⟨hu.table_eq, htable, ?_⟩, ⟨hsame ▸ List.prefix_rfl, hconjuncts⟩⟩
      have hnames := congrArg (List.map Column.name) hsame
      simp only [List.map_map, Function.comp_def] at hnames
      rw [hnames]
      exact hu.nodup_names
    · refine ⟨⟨hu.table_eq, htable, ?_⟩, ⟨by simp [hlast], hconjuncts⟩⟩
      rw [hlast, List.map_append, List.nodup_append]
      refine ⟨hu.nodup_names, List.nodup_singleton _, ?_⟩
      -- A column of the same name would be the same column, since both are of the table.
      rintro _ hname _ (_ | ⟨_, ⟨⟩⟩) rfl
      obtain ⟨a, ha, hname⟩ := List.mem_map.1 hname
      have hsameAs : a.1.sameAs c = true :=
        (Column.sameAs_iff a.1 c).2 ⟨hname, (hu.table_of_mem a ha).trans hc.symm⟩
      rw [hnew a ha] at hsameAs
      cases hsameAs
  | filterBy e =>
    obtain ⟨-, -, filter, -, rfl⟩ := filterBy_eq_ok h
    exact ⟨⟨hu.table_eq, hu.table_of_mem, hu.nodup_names⟩, List.prefix_rfl, hconjuncts⟩
  | returningColumns columns =>
    obtain ⟨-, rfl⟩ := returningColumns_eq_ok h
    exact ⟨⟨hu.table_eq, hu.table_of_mem, hu.nodup_names⟩, List.prefix_rfl, hconjuncts⟩

theorem IsRegular.run (hu : u.IsRegular t) (h : Run Succeeds u steps u') :
    u'.IsRegular t ∧ u.Extends u' := by
  refine h.invariant (P := fun u' => u'.IsRegular t ∧ u.Extends u') ?_ ⟨hu, .refl u⟩
  intro v st v' hv hstep
  obtain ⟨hregular, hextends⟩ := hv.1.step hstep
  exact ⟨hregular, hv.2.trans hextends⟩

/-- An update is complete as soon as a column was assigned. -/
theorem isComplete_iff_of_run (h : Run Succeeds u steps u') :
    u'.IsComplete ↔ u.IsComplete ∨ ∃ st ∈ steps, ∃ c operand, st = .set c operand := by
  refine h.reached_iff fun {u st u'} h => ?_
  cases st with
  | set c operand =>
    obtain ⟨-, e, -, rfl⟩ := set_eq_ok h
    obtain ⟨a, ha, -⟩ := exists_mem_put c e u.assignments
    simp [IsComplete, List.ne_nil_of_mem ha]
  | filterBy e =>
    obtain ⟨-, -, filter, -, rfl⟩ := filterBy_eq_ok h
    simp [IsComplete]
  | returningColumns columns =>
    obtain ⟨-, rfl⟩ := returningColumns_eq_ok h
    simp [IsComplete]

/-- An assignment stays until the same column is assigned again. -/
theorem mem_assignments_of_run (h : Run Succeeds u steps u') (ha : a ∈ u.assignments)
    (hsteps : ∀ d operand, .set d operand ∈ steps → a.1.sameAs d = false) :
    a ∈ u'.assignments := by
  induction h with
  | nil => exact ha
  | @cons u next u' st steps h _ ih =>
    refine ih ?_ fun d operand hd => hsteps d operand (List.mem_cons_of_mem _ hd)
    cases st with
    | set c operand =>
      obtain ⟨-, e, -, rfl⟩ := set_eq_ok h
      exact mem_put_of_ne ha (hsteps c operand (.head _))
    | filterBy e =>
      obtain ⟨-, -, filter, -, rfl⟩ := filterBy_eq_ok h
      exact ha
    | returningColumns columns =>
      obtain ⟨-, rfl⟩ := returningColumns_eq_ok h
      exact ha

/-- **An update has the assignments and the conditions of its steps.** -/
theorem reflects_of_run (h : Run Succeeds (ofTable t) steps u) : u.Reflects t steps := by
  have hconjuncts : conjuncts u.filter? = steps.flatMap fun st => conjuncts st.condition? :=
    h.view_eq (fun u => conjuncts u.filter?) conjuncts_of_step
  refine ⟨?_, ?_, hconjuncts, fun I x => ?_⟩
  · rw [isComplete_iff_of_run h]
    exact ⟨fun h => h.elim (absurd rfl) fun ⟨_, hst, c, operand, hset⟩ => ⟨c, operand, hset ▸ hst⟩,
      fun ⟨c, operand, hset⟩ => .inr ⟨_, hset, c, operand, rfl⟩⟩
  · rintro earlier c operand later rfl hlater
    obtain ⟨before, hbefore, hrest⟩ := h.exists_of_append
    obtain ⟨after, hset, hafter⟩ := Run.cons_iff.1 hrest
    obtain ⟨-, e, haccept, rfl⟩ := set_eq_ok hset
    rw [((isRegular_ofTable t).run hbefore).1.table_eq] at haccept
    obtain ⟨a, ha, hsame, rfl⟩ := exists_mem_put c e before.assignments
    refine ⟨a, mem_assignments_of_run hafter ha fun d operand' hd => ?_, hsame, haccept⟩
    have hne := hlater d operand' hd
    rw [Bool.eq_false_iff] at hne ⊢
    intro hsame'
    simp_all
  · rw [holds_iff_of_conjuncts_eq I x hconjuncts]
    refine ⟨fun h e he => h _ he e rfl, fun h st hst e he => ?_⟩
    cases st with
    | filterBy _ => exact Option.some.inj he ▸ h _ hst
    | set _ _ => cases he
    | returningColumns _ => cases he

theorem setAll_eq_ok_iff {assignments : List (Column × Operand)} :
    u.setAll assignments = .ok u' ↔
      Run Succeeds u (assignments.map fun a => .set a.1 a.2) u' := by
  induction assignments generalizing u with
  | nil =>
    rw [List.map_nil, Run.nil_iff, setAll, Except.ok.injEq]
  | cons a assignments ih =>
    rw [List.map_cons, Run.cons_iff, setAll, bind_eq_ok]
    exact exists_congr fun next => and_congr Iff.rfl ih

/-- Some assignments at once are the assignments one after another. -/
theorem ofAssignments_eq_ok_iff {assignments : List (Column × Operand)} :
    ofAssignments t assignments = .ok u ↔ assignments ≠ [] ∧
      Run Succeeds (ofTable t) (assignments.map fun a => .set a.1 a.2) u := by
  rw [← setAll_eq_ok_iff]
  cases assignments <;> simp [ofAssignments]

end Runs

end Update

end TypedSql
