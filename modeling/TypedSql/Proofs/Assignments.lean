import TypedSql.Proofs.Rows
import TypedSql.Proofs.Mutations

/-!
# Assignments of updates

An update assigns columns one after another, mixed with conditions and returned columns. What it has
in the end is a map that keeps the order of insertion:

* its columns are those that were assigned, without repetitions, in the order in which each was
  assigned first (`Column.firsts`), and each has the value of its last assignment
  (`Update.Collects`);
* assignments and the other steps do not get in each other's way, so that all assignments may as
  well come first (`Update.run_iff_assignmentsFirst`);
* the text sets the columns in this order, and their values are the first parameters
  (`Update.compile_eq`).
-/

namespace TypedSql

/-! ### Lists that runs collect -/

/-- What holds of a state and of what all steps before it have added holds after a run. -/
theorem Run.collected {σ τ β : Type} {succeeds : σ → τ → σ → Prop} {s s' : σ} {steps : List τ}
    {P : List β → σ → Prop} {added? : τ → Option β} {added : List β}
    (hstep : ∀ {added s st s'}, P added s → succeeds s st s' → P (added ++ (added? st).toList) s')
    (h : Run succeeds s steps s') (hs : P added s) : P (added ++ steps.filterMap added?) s' := by
  induction h generalizing added with
  | nil => simpa using hs
  | @cons _ _ _ st _ h _ ih =>
    have hrest := ih (hstep hs h)
    cases hst : added? st <;> simpa [hst] using hrest

/-! ### The first of the same columns -/

namespace Column

variable {c d : Column} {cs : List Column}

/-- The columns of a list, each where it comes first. -/
def firsts : List Column → List Column
  | [] => []
  | c :: cs => c :: (firsts cs).filter fun d => !c.sameAs d

theorem sameAs_comm (c d : Column) : c.sameAs d = d.sameAs c := by
  rw [Bool.eq_iff_iff, sameAs_iff, sameAs_iff, eq_comm, @eq_comm _ c.table]

/-- Columns that are the same are the same as the same columns. -/
theorem sameAs_congr (h : c.sameAs d = true) (b : Column) : c.sameAs b = d.sameAs b := by
  rw [sameAs_iff] at h
  rw [Bool.eq_iff_iff, sameAs_iff, sameAs_iff, h.1, h.2]

/-- A column that is not the same as another is not the same as those which are. -/
theorem not_sameAs_of_sameAs {b : Column} (hb : ¬ b.sameAs c = true) (hd : d.sameAs c = true) :
    (!b.sameAs d) = true := by
  rw [sameAs_comm b d, sameAs_congr hd, sameAs_comm c b]
  exact Bool.not_eq_true' _ ▸ Bool.eq_false_iff.2 hb

/-- Of the columns that are the same, one is left. -/
theorem exists_filter_firsts (hc : c ∈ cs) :
    ∃ d, ((firsts cs).filter fun d => d.sameAs c) = [d] := by
  induction cs with
  | nil => cases hc
  | cons b cs ih =>
    rw [firsts]
    by_cases hb : b.sameAs c = true
    · refine ⟨b, ?_⟩
      rw [List.filter_cons, if_pos hb, List.filter_filter, List.filter_eq_nil_iff.2]
      intro d _ hd
      rw [sameAs_congr hb, sameAs_comm c d, Bool.and_not_self] at hd
      cases hd
    · rw [List.filter_cons, if_neg hb, List.filter_filter]
      have hkept : ∀ d ∈ firsts cs, (d.sameAs c && !b.sameAs d) = d.sameAs c := fun d _ => by
        cases hd : d.sameAs c with
        | false => rfl
        | true => rw [not_sameAs_of_sameAs hb hd, Bool.and_true]
      rw [List.filter_congr hkept]
      exact ih ((List.mem_cons.1 hc).resolve_left fun h => hb (by simp [h]))

/-- A column that was there stays in its place; a new one comes last. -/
theorem firsts_concat (cs : List Column) (c : Column) :
    firsts (cs ++ [c]) =
      if (firsts cs).any fun d => d.sameAs c then firsts cs else firsts cs ++ [c] := by
  induction cs with
  | nil => rfl
  | cons b cs ih =>
    rw [List.cons_append, firsts, ih, firsts, List.any_cons]
    by_cases hb : b.sameAs c = true
    -- The new column goes the way of all that are the same as the first one.
    · split <;> simp [hb, -sameAs_iff]
    · have hkept : ((firsts cs).filter fun d => !b.sameAs d).any (fun d => d.sameAs c) =
          (firsts cs).any fun d => d.sameAs c := by
        rw [List.any_filter]
        refine congrArg (List.any (firsts cs)) (funext fun d => ?_)
        cases hd : d.sameAs c with
        | false => rw [Bool.and_false]
        | true => rw [not_sameAs_of_sameAs hb hd, Bool.and_true]
      rw [hkept, Bool.eq_false_iff.2 hb, Bool.false_or]
      split
      · rfl
      · rw [List.filter_append, List.cons_append, List.filter_singleton, Bool.eq_false_iff.2 hb]
        rfl

end Column

/-! ### What an update collects -/

namespace Update

/-- The assignment that a step makes. -/
def Step.assignment? : Step → Option (Column × Operand)
  | .set c operand => some (c, operand)
  | .filterBy _ | .returningColumns _ => none

/-- The assignments of an update collect what was given in turn: they are of the columns that were
given, each once and where it was given first, and each has the value that its column was given
last. -/
structure Collects (t : Table) (given : List (Column × Operand))
    (assignments : List (Column × Expr)) : Prop where
  columns_eq : assignments.map Prod.fst = Column.firsts (given.map Prod.fst)
  once : ∀ g ∈ given, ∃ a, (assignments.filter fun a => a.1.sameAs g.1) = [a]
  last : ∀ a ∈ assignments, ∃ earlier d operand later,
    given = earlier ++ (d, operand) :: later ∧ d.sameAs a.1 = true ∧
      (∀ g ∈ later, g.1.sameAs a.1 = false) ∧ d.accept .set [t.ref] operand = .ok a.2

section Collects

variable {t : Table} {given : List (Column × Operand)} {assignments : List (Column × Expr)}
  {c : Column} {operand : Operand} {e : Expr}

theorem map_fst_put_eq (c : Column) (e : Expr) (assignments : List (Column × Expr)) :
    (put c e assignments).map Prod.fst =
      if (assignments.map Prod.fst).any fun d => d.sameAs c then assignments.map Prod.fst
      else assignments.map Prod.fst ++ [c] := by
  induction assignments with
  | nil => rfl
  | cons a assignments ih =>
    obtain ⟨d, f⟩ := a
    rw [put]
    by_cases hd : d.sameAs c = true
    · simp [hd]
    · rw [if_neg hd, List.map_cons, ih, List.map_cons, List.any_cons, Bool.eq_false_iff.2 hd,
        Bool.false_or]
      split <;> rfl

/-- Each column is assigned once, since the columns are those that come first. -/
theorem exists_filter_of_columns_eq
    (h : assignments.map Prod.fst = Column.firsts (given.map Prod.fst)) {g : Column × Operand}
    (hg : g ∈ given) : ∃ a, (assignments.filter fun a => a.1.sameAs g.1) = [a] := by
  obtain ⟨d, hd⟩ := Column.exists_filter_firsts (List.mem_map_of_mem (f := Prod.fst) hg)
  have hcolumns : (assignments.filter fun a => a.1.sameAs g.1).map Prod.fst = [d] := by
    rw [← hd, ← h, List.filter_map]
    rfl
  obtain ⟨a, ha, -⟩ := List.map_eq_singleton_iff.1 hcolumns
  exact ⟨a, ha⟩

theorem Collects.nil (t : Table) : Collects t [] [] :=
  ⟨rfl, List.forall_mem_nil _, List.forall_mem_nil _⟩

/-- **An assignment is collected with those before it.** -/
theorem Collects.put (h : Collects t given assignments)
    (haccept : c.accept .set [t.ref] operand = .ok e) :
    Collects t (given ++ [(c, operand)]) (put c e assignments) := by
  have hcolumns : (Update.put c e assignments).map Prod.fst =
      Column.firsts ((given ++ [(c, operand)]).map Prod.fst) := by
    rw [map_fst_put_eq, List.map_append, List.map_singleton, Column.firsts_concat, h.columns_eq]
  have honce := fun g hg => exists_filter_of_columns_eq hcolumns (g := g) hg
  refine ⟨hcolumns, honce, fun a ha => ?_⟩
  by_cases hsame : a.1.sameAs c = true
  -- The only assignment to this column is the one that was just made.
  · obtain ⟨x, hx⟩ := honce (c, operand) (List.mem_append_right _ (.head _))
    obtain ⟨b, hb, hsame', rfl⟩ := exists_mem_put c e assignments
    have hax : a = x := List.mem_singleton.1 (hx ▸ List.mem_filter.2 ⟨ha, hsame⟩)
    have hbx : b = x := List.mem_singleton.1 (hx ▸ List.mem_filter.2 ⟨hb, hsame'⟩)
    obtain rfl : a = b := hax.trans hbx.symm
    exact ⟨given, c, operand, [], rfl, Column.sameAs_comm a.1 c ▸ hsame, List.forall_mem_nil _,
      haccept⟩
  · have hold : a ∈ assignments := by
      obtain hold | ⟨-, rfl | ⟨hsame', -⟩⟩ := mem_put ha
      · exact hold
      · simp at hsame
      · exact absurd hsame' hsame
    obtain ⟨earlier, d, operand', later, rfl, hd, hlater, hvalue⟩ := h.last a hold
    refine ⟨earlier, d, operand', later ++ [(c, operand)], by simp, hd, ?_, hvalue⟩
    refine List.forall_mem_append.2 ⟨hlater, List.forall_mem_singleton.2 ?_⟩
    rw [Column.sameAs_comm]
    exact Bool.eq_false_iff.2 hsame

end Collects

section Runs

variable {t : Table} {u u' v w : Update} {st : Step} {steps : List Step}
  {given : List (Column × Operand)} {c : Column} {operand : Operand}

/-- A step keeps an update of a table, with the assignments that it has collected. -/
theorem collects_of_step (h : u.table = t ∧ Collects t given u.assignments)
    (hstep : u.Succeeds st u') :
    u'.table = t ∧ Collects t (given ++ st.assignment?.toList) u'.assignments := by
  obtain ⟨rfl, hcollects⟩ := h
  cases st with
  | set c operand =>
    obtain ⟨-, e, haccept, rfl⟩ := set_eq_ok hstep
    exact ⟨rfl, hcollects.put haccept⟩
  | filterBy e =>
    obtain ⟨-, -, filter, -, rfl⟩ := filterBy_eq_ok hstep
    exact ⟨rfl, (List.append_nil given).symm ▸ hcollects⟩
  | returningColumns columns =>
    obtain ⟨-, rfl⟩ := returningColumns_eq_ok hstep
    exact ⟨rfl, (List.append_nil given).symm ▸ hcollects⟩

/-- The assignments of an update are collected from its steps. -/
theorem collects_of_run (h : Run Succeeds (ofTable t) steps u) :
    u.table = t ∧ Collects t (steps.filterMap Step.assignment?) u.assignments :=
  h.collected (P := fun given u => u.table = t ∧ Collects t given u.assignments) collects_of_step
    ⟨rfl, .nil t⟩

/-! ### Assignments come first -/

/-- The step makes an assignment. -/
def Step.isAssignment (st : Step) : Bool :=
  st.assignment?.isSome

/-- The same steps with all assignments before the others. -/
def assignmentsFirst (steps : List Step) : List Step :=
  steps.filter Step.isAssignment ++ steps.filter fun st => !st.isAssignment

/-- An assignment looks at nothing but the table of an update and changes only its assignments. -/
theorem succeeds_set_iff :
    u.Succeeds (.set c operand) u' ↔ c.expectIn [u.table.ref] = .ok () ∧
      ∃ e, c.accept .set [u.table.ref] operand = .ok e ∧
        { u with assignments := put c e u.assignments } = u' := by
  simp only [Succeeds, step, set, bind_eq_ok, pure_eq_ok]
  exact ⟨fun ⟨(), h⟩ => h, fun h => ⟨(), h⟩⟩

/-- Another step does not look at the assignments. -/
theorem succeeds_with_assignments (hst : st.isAssignment = false) (h : u.Succeeds st u')
    (assignments : List (Column × Expr)) :
    { u with assignments }.Succeeds st { u' with assignments } := by
  cases st with
  | set c operand => cases hst
  | filterBy e =>
    simp only [Succeeds, step, filterBy, bind_eq_ok, pure_eq_ok] at h ⊢
    obtain ⟨x, hclass, y, hbound, filter, hattach, rfl⟩ := h
    exact ⟨x, hclass, y, hbound, filter, hattach, rfl⟩
  | returningColumns columns =>
    simp only [Succeeds, step, returningColumns, bind_eq_ok, pure_eq_ok] at h ⊢
    obtain ⟨x, hin, rfl⟩ := h
    exact ⟨x, hin, rfl⟩

/-- Another step leaves the table and the assignments alone. -/
theorem eq_of_succeeds (hst : st.isAssignment = false) (h : u.Succeeds st u') :
    u'.table = u.table ∧ u'.assignments = u.assignments := by
  cases st with
  | set c operand => cases hst
  | filterBy e =>
    obtain ⟨-, -, filter, -, rfl⟩ := filterBy_eq_ok h
    exact ⟨rfl, rfl⟩
  | returningColumns columns =>
    obtain ⟨-, rfl⟩ := returningColumns_eq_ok h
    exact ⟨rfl, rfl⟩

/-- **An assignment and another step change places.** -/
theorem succeeds_comm (hst : st.isAssignment = false) :
    (∃ v, u.Succeeds st v ∧ v.Succeeds (.set c operand) w) ↔
      ∃ v, u.Succeeds (.set c operand) v ∧ v.Succeeds st w := by
  refine ⟨?_, ?_⟩
  · rintro ⟨v, hother, hset⟩
    obtain ⟨htable, hassignments⟩ := eq_of_succeeds hst hother
    obtain ⟨hin, e, haccept, rfl⟩ := succeeds_set_iff.1 hset
    rw [htable] at hin haccept
    refine ⟨_, succeeds_set_iff.2 ⟨hin, e, haccept, rfl⟩, ?_⟩
    rw [hassignments]
    exact succeeds_with_assignments hst hother _
  · rintro ⟨v, hset, hother⟩
    obtain ⟨hin, e, haccept, rfl⟩ := succeeds_set_iff.1 hset
    obtain ⟨htable, hassignments⟩ := eq_of_succeeds hst hother
    refine ⟨{ w with assignments := u.assignments },
      succeeds_with_assignments hst hother u.assignments, succeeds_set_iff.2 ?_⟩
    obtain ⟨table, assignments, filter?, returning⟩ := w
    obtain rfl : table = u.table := htable
    exact ⟨hin, e, haccept, congrArg (Update.mk u.table · filter? returning) hassignments.symm⟩

/-- A step that is no assignment may come after assignments. -/
theorem run_cons_iff_of_assignments (hst : st.isAssignment = false) {sets : List Step}
    (hsets : ∀ s ∈ sets, s.isAssignment = true) :
    Run Succeeds u (st :: sets ++ steps) u' ↔ Run Succeeds u (sets ++ st :: steps) u' := by
  induction sets generalizing u with
  | nil => rfl
  | cons s sets ih =>
    obtain ⟨hs, hrest⟩ := List.forall_mem_cons.1 hsets
    cases s with
    | filterBy e => cases hs
    | returningColumns columns => cases hs
    | set c operand =>
      calc Run Succeeds u (st :: .set c operand :: (sets ++ steps)) u'
          ↔ ∃ w, (∃ v, u.Succeeds st v ∧ v.Succeeds (.set c operand) w) ∧
              Run Succeeds w (sets ++ steps) u' := by
            simp only [Run.cons_iff]
            grind
        _ ↔ ∃ w, (∃ v, u.Succeeds (.set c operand) v ∧ v.Succeeds st w) ∧
              Run Succeeds w (sets ++ steps) u' := by
            simp only [succeeds_comm hst]
        _ ↔ Run Succeeds u (.set c operand :: (st :: sets ++ steps)) u' := by
            simp only [Run.cons_iff, List.cons_append]
            grind
        _ ↔ Run Succeeds u (.set c operand :: (sets ++ st :: steps)) u' := by
            rw [Run.cons_iff, Run.cons_iff]
            exact exists_congr fun v => and_congr_right' (ih hrest)

/-- **All assignments may as well come first**: the steps succeed in the one order exactly if they
do in the other, and bring about the same update. -/
theorem run_iff_assignmentsFirst :
    Run Succeeds u steps u' ↔ Run Succeeds u (assignmentsFirst steps) u' := by
  induction steps generalizing u with
  | nil => rfl
  | cons st steps ih =>
    rw [Run.cons_iff]
    simp only [ih]
    rw [← Run.cons_iff]
    cases hst : st.isAssignment with
    | true => simp [assignmentsFirst, hst]
    | false =>
      have hsets : ∀ s ∈ steps.filter Step.isAssignment, s.isAssignment = true := by simp
      have hmoved : Run Succeeds u
            (st :: steps.filter Step.isAssignment ++ steps.filter fun s => !s.isAssignment) u' ↔
          Run Succeeds u
            (steps.filter Step.isAssignment ++ st :: steps.filter fun s => !s.isAssignment) u' :=
        run_cons_iff_of_assignments hst hsets
      simpa [assignmentsFirst, hst] using hmoved

end Runs

/-! ### The text and the parameters of an update -/

/-- The text of an assignment for a dialect, where the next placeholder has the given position. -/
def assignmentText (d : Dialect) (n : Nat) (a : Column × Expr) : String :=
  d.quoteIdentifier a.1.name ++ " = " ++ String.join (Piece.texts d n (a.2.pieces d false))

/-- The values of an assignment, in the order of their placeholders. -/
def assignmentValues (d : Dialect) (a : Column × Expr) : List Value :=
  a.2.literals d.bindingRule

/-- The texts of assignments for a dialect; placeholders go on counting. -/
def assignmentTexts (d : Dialect) : Nat → List (Column × Expr) → List String
  | _, [] => []
  | n, a :: rest =>
    assignmentText d n a :: assignmentTexts d (n + (assignmentValues d a).length) rest

/-- The pieces of an update after its assignments: its condition and the columns that it returns. -/
def tailPieces (d : Dialect) (u : Update) : List Piece :=
  clausePieces " WHERE " (conditionPieces d false u.filter?) ++ returningPieces d u.returning

section Text

variable {d : Dialect} {n : Nat} {u : Update}

theorem parameters_assignmentPieces (a : Column × Expr) :
    Piece.parameters (assignmentPieces d a) = assignmentValues d a := by
  simp [assignmentPieces, Piece.parameters_text_cons, Column.parameters_pieces,
    Expr.parameters_pieces, assignmentValues]

theorem join_texts_assignmentPieces (a : Column × Expr) :
    String.join (Piece.texts d n (assignmentPieces d a)) = assignmentText d n a := by
  simp [assignmentPieces, assignmentText, Column.pieces, Piece.texts, String.append_assoc]

theorem join_texts_assignments (assignments : List (Column × Expr)) :
    String.join (Piece.texts d n (Piece.commaSeparated (assignments.map (assignmentPieces d)))) =
      String.intercalate ", " (assignmentTexts d n assignments) := by
  induction assignments generalizing n with
  | nil => rfl
  | cons a assignments ih =>
    cases assignments with
    | nil =>
      simp only [assignmentTexts, String.intercalate_singleton]
      exact join_texts_assignmentPieces a
    | cons b rest =>
      have hcons : Piece.commaSeparated ((a :: b :: rest).map (assignmentPieces d)) =
          assignmentPieces d a ++ .text ", " ::
            Piece.commaSeparated ((b :: rest).map (assignmentPieces d)) := rfl
      rw [hcons, Piece.texts_append, String.join_append, join_texts_assignmentPieces, Piece.texts,
        String.join_cons, parameters_assignmentPieces, ih, ← String.append_assoc]
      exact String.intercalate_cons_cons.symm

/-- **The text of an update sets its columns in their order**, and the values that they get are its
first parameters; its condition and the columns that it returns come after them. -/
theorem compile_eq (d : Dialect) (u : Update) (complete : u.IsComplete) :
    (Statement.update u complete).compile d =
      ⟨"UPDATE " ++ Piece.sql d u.table.sourcePieces ++ " SET " ++
          String.intercalate ", " (assignmentTexts d 1 u.assignments) ++
          String.join (Piece.texts d (1 + (u.assignments.flatMap (assignmentValues d)).length)
            (u.tailPieces d)),
        u.assignments.flatMap (assignmentValues d) ++
          literalsOfClause d.bindingRule u.filter?⟩ := by
  have hsource : Piece.parameters u.table.sourcePieces = [] := u.table.parameters_sourcePieces
  have hvalues : Piece.parameters
      (Piece.commaSeparated (u.assignments.map (assignmentPieces d))) =
        u.assignments.flatMap (assignmentValues d) := by
    rw [parameters_commaSeparated, List.flatMap_map]
    exact List.flatMap_congr fun a _ => parameters_assignmentPieces a
  have hsql : Piece.sql d (u.pieces d) = "UPDATE " ++ Piece.sql d u.table.sourcePieces ++ " SET " ++
      String.intercalate ", " (assignmentTexts d 1 u.assignments) ++
      String.join (Piece.texts d (1 + (u.assignments.flatMap (assignmentValues d)).length)
        (u.tailPieces d)) := by
    simp only [Update.pieces, tailPieces, Piece.sql, Piece.texts, Piece.texts_append,
      List.cons_append, List.append_assoc, String.join_append, String.join_cons, hsource, hvalues,
      List.length_nil, Nat.add_zero, join_texts_assignments, String.append_assoc]
  exact congrArg₂ Compiled.mk hsql u.parameters_pieces

end Text

/-- The update is just begun for a table, or begun with some assignments to it. -/
def Begins (t : Table) (given : List (Column × Operand)) (u : Update) : Prop :=
  given = [] ∧ u = ofTable t ∨ ofAssignments t given = .ok u

/-- An update that begins with assignments is reached by assigning one after another. -/
theorem Begins.run {t : Table} {given : List (Column × Operand)} {u : Update}
    (h : Begins t given u) :
    Run Succeeds (ofTable t) (given.map fun g => .set g.1 g.2) u := by
  obtain ⟨rfl, rfl⟩ | h := h
  · exact .nil _
  · exact (ofAssignments_eq_ok_iff.1 h).2

/-- **An update is a map from columns to values that keeps the order of insertion.** It may begin
with a list of assignments, and go on with assignments, conditions and returned columns in any
order, as long as all succeed. Then its assignments are of the columns that were assigned, each
exactly once and in the place where it was assigned first, and each has what the last assignment to
this column was resolved to. The steps succeed as well with all assignments before the others, and
bring about the same update, with the same condition and the same returned columns. If it is
complete, its text sets the columns in this order, the values that they get are its first
parameters, and its condition and the columns that it returns come after them. -/
theorem collects_and_compile_of_run (t : Table) (given : List (Column × Operand)) (u₀ u : Update)
    (steps : List Step) (hbegins : Begins t given u₀) (hrun : Run Succeeds u₀ steps u) :
    Collects t (given ++ steps.filterMap Step.assignment?) u.assignments ∧
      Run Succeeds u₀ (assignmentsFirst steps) u ∧
      ∀ (complete : u.IsComplete) (d : Dialect),
        (Statement.update u complete).compile d =
          ⟨"UPDATE " ++ Piece.sql d t.sourcePieces ++ " SET " ++
              String.intercalate ", " (assignmentTexts d 1 u.assignments) ++
              String.join (Piece.texts d (1 + (u.assignments.flatMap (assignmentValues d)).length)
                (u.tailPieces d)),
            u.assignments.flatMap (assignmentValues d) ++
              literalsOfClause d.bindingRule u.filter?⟩ := by
  obtain ⟨rfl, hcollects⟩ := collects_of_run (hbegins.run.append hrun)
  refine ⟨?_, run_iff_assignmentsFirst.1 hrun, fun complete d => compile_eq d u complete⟩
  simpa [List.filterMap_append, List.filterMap_map, Function.comp_def, Step.assignment?] using
    hcollects

/-- A cheap price. -/
def isCheap : Expr :=
  .binary (.column stockPrice) (.compare .lt) (pricedAt 9)

/-- Steps that assign a title twice and a price between conditions and returned columns. -/
def repricing : List Step :=
  [.filterBy isCheap, .set stockPrice (.value (.int 7)), .returningColumns [stockTitle],
    .set stockTitle (.value (.text "final"))]

theorem collects_and_compile_of_run_stock :
    ∃ u₀ u : Update, Begins stock [(stockTitle, .value (.text "draft"))] u₀ ∧
      Run Succeeds u₀ repricing u ∧
      u.assignments = [(stockTitle, .literal (.text "final") (some .text)),
        (stockPrice, pricedAt 7)] ∧
      Collects stock ((stockTitle, .value (.text "draft")) :: repricing.filterMap Step.assignment?)
        u.assignments ∧
      Run Succeeds u₀ (assignmentsFirst repricing) u ∧
      ∃ complete : u.IsComplete, ((Statement.update u complete).compile .postgres).parameters =
        [.text "final", .int 7, .int 9] := by
  let u₀ : Update := ⟨stock, [(stockTitle, .literal (.text "draft") (some .text))], none, []⟩
  let u : Update := ⟨stock, [(stockTitle, .literal (.text "final") (some .text)),
    (stockPrice, pricedAt 7)], some isCheap, [stockTitle]⟩
  have hbegins : Begins stock [(stockTitle, .value (.text "draft"))] u₀ := .inr rfl
  have hrun : Run Succeeds u₀ repricing u := .cons rfl (.cons rfl (.cons rfl (.cons rfl (.nil _))))
  obtain ⟨hcollects, hfirst, hcompile⟩ :=
    collects_and_compile_of_run stock _ u₀ u repricing hbegins hrun
  have hcomplete : u.IsComplete := List.cons_ne_nil _ _
  exact ⟨u₀, u, hbegins, hrun, rfl, hcollects, hfirst, hcomplete,
    congrArg Compiled.parameters (hcompile hcomplete .postgres)⟩

end Update

end TypedSql
