import TypedSql.Proofs.Sources

/-!
# The order in which clauses are attached

Each step that builds a select belongs to one clause, and what it does to that clause depends on
nothing else. So steps of different clauses commute (`Select.stepped_comm`), and a select is
determined by the steps of each clause in turn: two successful runs of steps that agree on these
build one select, however the steps of different clauses are interleaved
(`Select.build_eq_of_sameByClause`). What the interleaving does decide is whether a run succeeds,
since a step is checked against the tables that are there by then.
-/

namespace TypedSql

namespace Select

/-- The clauses that the steps of a select belong to; the tables of enclosing statements are one. -/
inductive Clause
  | projection
  | distinct
  | correlation
  | joins
  | filter
  | grouping
  | having
  | order
  | limit
  | offset
  deriving DecidableEq

/-- The clause that a step belongs to. -/
def Step.clause : Step → Clause
  | .project _ | .projectAs _ _ => .projection
  | .dropDuplicates => .distinct
  | .correlate _ => .correlation
  | .join _ _ _ | .crossJoin _ => .joins
  | .filterBy _ => .filter
  | .group _ => .grouping
  | .havingBy _ => .having
  | .sort _ => .order
  | .limit _ => .limit
  | .offset _ => .offset

/-- The steps of one clause, in turn. -/
def stepsOf (clause : Clause) (steps : List Step) : List Step :=
  steps.filter fun st => st.clause = clause

/-- Two lists of steps are permutations of each other that keep the order of the steps of each
clause. -/
def SameByClause (steps steps' : List Step) : Prop :=
  steps.Perm steps' ∧ ∀ clause, stepsOf clause steps = stepsOf clause steps'

section StepsOf

variable {clause : Clause} {st : Step} {steps steps' before after : List Step}

theorem stepsOf_cons_self (st : Step) (steps : List Step) :
    stepsOf st.clause (st :: steps) = st :: stepsOf st.clause steps :=
  List.filter_cons_of_pos (by simp)

theorem stepsOf_cons_of_ne (h : st.clause ≠ clause) :
    stepsOf clause (st :: steps) = stepsOf clause steps :=
  List.filter_cons_of_neg (by simpa using h)

theorem stepsOf_append (clause : Clause) (steps steps' : List Step) :
    stepsOf clause (steps ++ steps') = stepsOf clause steps ++ stepsOf clause steps' :=
  List.filter_append ..

theorem stepsOf_eq_nil (h : ∀ st ∈ steps, st.clause ≠ clause) : stepsOf clause steps = [] :=
  List.filter_eq_nil_iff.2 (by simpa using h)

/-- The first step of a clause has only steps of other clauses before it. -/
theorem exists_eq_append_of_stepsOf (h : stepsOf clause steps' = st :: steps) :
    ∃ before after, steps' = before ++ st :: after ∧ ∀ b ∈ before, b.clause ≠ clause := by
  obtain ⟨before, after, hsteps, hbefore, -, -⟩ := List.filter_eq_cons_iff.1 h
  exact ⟨before, after, hsteps, by simpa using hbefore⟩

/-- A step can be taken out of both lists, where nothing of its clause is before it. -/
theorem stepsOf_eq_of_cons
    (h : ∀ clause, stepsOf clause (st :: steps) = stepsOf clause (before ++ st :: after))
    (hbefore : ∀ b ∈ before, b.clause ≠ st.clause) (clause : Clause) :
    stepsOf clause steps = stepsOf clause (before ++ after) := by
  have hclause := h clause
  rw [stepsOf_append] at hclause ⊢
  by_cases hst : st.clause = clause
  · subst hst
    rw [stepsOf_eq_nil hbefore, stepsOf_cons_self, stepsOf_cons_self] at hclause
    rw [stepsOf_eq_nil hbefore]
    exact List.tail_eq_of_cons_eq hclause
  · rwa [stepsOf_cons_of_ne hst, stepsOf_cons_of_ne hst] at hclause

/-- What two lists of steps have to agree on are the steps of each clause: then they are
permutations of each other. -/
theorem sameByClause_iff :
    SameByClause steps steps' ↔ ∀ clause, stepsOf clause steps = stepsOf clause steps' := by
  refine ⟨And.right, fun h => ⟨?_, h⟩⟩
  induction steps generalizing steps' with
  | nil =>
    -- A step that is left over would be a step of its own clause.
    cases steps' with
    | nil => exact .nil
    | cons st steps' => cases (h st.clause).trans (stepsOf_cons_self st steps')
  | cons st steps ih =>
    obtain ⟨before, after, rfl, hbefore⟩ :=
      exists_eq_append_of_stepsOf ((h st.clause).symm.trans (stepsOf_cons_self st steps))
    exact ((ih (stepsOf_eq_of_cons h hbefore)).cons st).trans List.perm_middle.symm

end StepsOf

/-! ### Steps of different clauses -/

/-- **Steps of different clauses commute.** -/
theorem stepped_comm (s : Select) {a b : Step} (h : a.clause ≠ b.clause) :
    (s.stepped a).stepped b = (s.stepped b).stepped a := by
  cases a <;> cases b <;> first | rfl | exact absurd rfl h

/-- A step may be performed before steps of other clauses. -/
theorem foldl_stepped_cons (s : Select) {st : Step} {before : List Step}
    (h : ∀ b ∈ before, b.clause ≠ st.clause) (after : List Step) :
    (before ++ st :: after).foldl stepped s = (st :: (before ++ after)).foldl stepped s := by
  induction before generalizing s with
  | nil => rfl
  | cons b before ih =>
    obtain ⟨hb, hbefore⟩ := List.forall_mem_cons.1 h
    calc (b :: before ++ st :: after).foldl stepped s
        = (before ++ st :: after).foldl stepped (s.stepped b) := rfl
      _ = (before ++ after).foldl stepped ((s.stepped b).stepped st) := ih _ hbefore
      _ = (before ++ after).foldl stepped ((s.stepped st).stepped b) := by rw [stepped_comm s hb]
      _ = (st :: (b :: before ++ after)).foldl stepped s := rfl

/-- Steps in an order that keeps the steps of each clause in turn have one effect. -/
theorem SameByClause.foldl_stepped_eq {steps steps' : List Step} (h : SameByClause steps steps')
    (s : Select) : steps.foldl stepped s = steps'.foldl stepped s := by
  induction steps generalizing s steps' with
  | nil => rw [h.1.nil_eq]
  | cons st steps ih =>
    -- In the other list, only steps of other clauses are before the first one.
    obtain ⟨before, after, rfl, hbefore⟩ :=
      exists_eq_append_of_stepsOf ((h.2 st.clause).symm.trans (stepsOf_cons_self st steps))
    rw [foldl_stepped_cons s hbefore]
    exact ih (sameByClause_iff.2 (stepsOf_eq_of_cons h.2 hbefore)) _

/-- A run that succeeds has the effects of its steps. -/
theorem run_eq_foldl_stepped {steps : List Step} {s s' : Select}
    (h : steps.foldlM step s = .ok s') : s' = steps.foldl stepped s := by
  induction steps generalizing s with
  | nil => exact (Except.ok.inj h).symm
  | cons st steps ih =>
    rw [List.foldlM_cons] at h
    obtain ⟨next, hstep, hrest⟩ := bind_eq_ok.1 h
    rw [ih hrest, step_eq_stepped hstep, List.foldl_cons]

/-- **The order in which clauses are attached does not matter.** Two runs of steps that succeed, and
are permutations of each other that keep the order of the steps of each clause, build one select,
which has one text and one list of parameters for every dialect. -/
theorem build_eq_of_sameByClause {t : Table} {steps steps' : List Step} {s s' : Select}
    (hsame : SameByClause steps steps') (h : build t steps = .ok s)
    (h' : build t steps' = .ok s') :
    s = s' ∧ ∀ d : Dialect, (Statement.select s).compile d = (Statement.select s').compile d := by
  have heq : s = s' := by
    rw [run_eq_foldl_stepped h, run_eq_foldl_stepped h', hsame.foldl_stepped_eq]
  exact ⟨heq, fun d => by rw [heq]⟩

/-- The first orders for goods in a range of prices, where the page is set before the conditions. -/
def pageFirst : List Step :=
  [.limit 3, .filterBy (priceAgainst .gt 5), .crossJoin orders, .filterBy (priceAgainst .lt 9),
    .limit 7]

/-- The same with the page set after the conditions. -/
def pageLast : List Step :=
  [.crossJoin orders, .filterBy (priceAgainst .gt 5), .filterBy (priceAgainst .lt 9), .limit 3,
    .limit 7]

theorem build_eq_of_sameByClause_pageFirst :
    ∃ s s', SameByClause pageFirst pageLast ∧ build goods pageFirst = .ok s ∧
      build goods pageLast = .ok s' ∧ s = s' ∧ s.limit? = some 7 ∧
      (Statement.select s).compile .postgres = (Statement.select s').compile .postgres := by
  have hsame : SameByClause pageFirst pageLast :=
    sameByClause_iff.2 fun clause => by cases clause <;> rfl
  have hfirst : build goods pageFirst = .ok (pageFirst.foldl stepped (ofTable goods)) := rfl
  have hlast : build goods pageLast = .ok (pageLast.foldl stepped (ofTable goods)) := rfl
  obtain ⟨heq, hcompile⟩ := build_eq_of_sameByClause hsame hfirst hlast
  exact ⟨_, _, hsame, hfirst, hlast, heq, rfl, hcompile .postgres⟩

end Select

end TypedSql
