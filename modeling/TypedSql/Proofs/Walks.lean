import TypedSql.Proofs.PieceView
import TypedSql.Statement.Basic

/-!
# Walks over statements

A walk goes over all expressions that are written for a statement, in the order in which they are
written, and collects marks: at each expression before its parts (`Marks.opening`), and between the
two sides of a binary operator or of a quantified comparison (`Marks.middle`). It goes twice over a
sort key that is written twice, and not at all into membership in an empty list, which is written as
a truth value.
-/

namespace TypedSql

/-- What a walk collects, and how often it goes over sort keys. -/
structure Marks (β : Type) where
  /-- At an expression, before its parts. -/
  opening : Expr → List β
  /-- Between the sides of a binary operator or a quantified comparison. -/
  middle : Expr → List β
  /-- A sort key with a placement of NULL is written twice. -/
  repeatsPlacedKeys : Bool

variable {β : Type}

mutual

/-- The marks of an expression. -/
def Expr.walk (m : Marks β) : Expr → List β
  | .column c => m.opening (.column c)
  | .literal v type? => m.opening (.literal v type?)
  | .negation e => m.opening (.negation e) ++ e.walk m
  | .complement e => m.opening (.complement e) ++ e.walk m
  | .nullTest e negated => m.opening (.nullTest e negated) ++ e.walk m
  | .binary l op r =>
    m.opening (.binary l op r) ++ l.walk m ++ m.middle (.binary l op r) ++ r.walk m
  | .junction kind parts => m.opening (.junction kind parts) ++ walkAll m parts
  | .rowCount => m.opening .rowCount
  | .valueCount distinct e => m.opening (.valueCount distinct e) ++ e.walk m
  | .apply f e => m.opening (.apply f e) ++ e.walk m
  | .orElse e fallback => m.opening (.orElse e fallback) ++ e.walk m ++ fallback.walk m
  | .extremum f first second rest =>
    m.opening (.extremum f first second rest) ++ first.walk m ++ second.walk m ++ walkAll m rest
  | .joinedText e separator => m.opening (.joinedText e separator) ++ e.walk m
  | .listMembership _ [] _ => []
  | .listMembership e (item :: items) negated =>
    m.opening (.listMembership e (item :: items) negated) ++ e.walk m ++ item.walk m ++
      walkAll m items
  | .rowMembership e query negated =>
    m.opening (.rowMembership e query negated) ++ e.walk m ++ query.walk m
  | .range e low high negated =>
    m.opening (.range e low high negated) ++ e.walk m ++ low.walk m ++ high.walk m
  | .existence query negated => m.opening (.existence query negated) ++ query.walk m
  | .quantified e op quantifier query =>
    m.opening (.quantified e op quantifier query) ++ e.walk m ++
      m.middle (.quantified e op quantifier query) ++ query.walk m

/-- The marks of some expressions in turn. -/
def walkAll (m : Marks β) : List Expr → List β
  | [] => []
  | e :: es => e.walk m ++ walkAll m es

/-- The marks of a clause that may be missing. -/
def walkClause (m : Marks β) : Option Expr → List β
  | none => []
  | some e => e.walk m

/-- The marks of result columns in turn. -/
def walkProjections (m : Marks β) : List Projection → List β
  | [] => []
  | ⟨e, _⟩ :: ps => e.walk m ++ walkProjections m ps

/-- The marks of join conditions in turn. -/
def walkJoins (m : Marks β) : List Join → List β
  | [] => []
  | .on _ _ condition :: js => condition.walk m ++ walkJoins m js
  | .cross _ :: js => walkJoins m js

/-- The marks of sort keys in turn. -/
def walkSortKeys (m : Marks β) : List SortKey → List β
  | [] => []
  | ⟨e, _, nulls?⟩ :: ks =>
    Piece.keyView m.repeatsPlacedKeys nulls? (e.walk m) ++ walkSortKeys m ks

/-- The marks of a select: result columns, join conditions, `WHERE`, `HAVING`, `ORDER BY`. -/
def Select.walk (m : Marks β) : Select → List β
  | ⟨_, projections, _, _, joins, filter?, _, having?, orderBy, _, _⟩ =>
    walkProjections m projections ++ walkJoins m joins ++ walkClause m filter? ++
      walkClause m having? ++ walkSortKeys m orderBy

end

/-- The marks of a compound select: its members in order, then `ORDER BY`. -/
def CompoundSelect.walk (m : Marks β) (c : CompoundSelect) : List β :=
  c.members.flatMap (Select.walk m) ++ walkSortKeys m c.orderBy

/-- The marks of an insert, row by row and each row in the order of the columns. -/
def Insert.walk (m : Marks β) (i : Insert) : List β :=
  i.rows.flatMap fun row => row.flatMap (Expr.walk m)

/-- The marks of an update: its assignments in order, then `WHERE`. -/
def Update.walk (m : Marks β) (u : Update) : List β :=
  u.assignments.flatMap (fun a => a.2.walk m) ++ walkClause m u.filter?

/-- The marks of the condition of a delete. -/
def Delete.walk (m : Marks β) (x : Delete) : List β :=
  walkClause m x.condition?

/-- The marks of a statement. -/
def Statement.walk (m : Marks β) : Statement → List β
  | .select s => s.walk m
  | .compound c => c.walk m
  | .insert i _ => i.walk m
  | .update u _ => u.walk m
  | .delete x _ => x.walk m

section Lists

variable (m : Marks β)

theorem walkAll_eq (es : List Expr) : walkAll m es = es.flatMap (Expr.walk m) := by
  induction es with
  | nil => rfl
  | cons e es ih => simp [walkAll, ih]

theorem walkClause_eq (e? : Option Expr) : walkClause m e? = e?.toList.flatMap (Expr.walk m) := by
  cases e? <;> simp [walkClause]

theorem walkProjections_eq (ps : List Projection) :
    walkProjections m ps = ps.flatMap fun p => p.expr.walk m := by
  induction ps with
  | nil => rfl
  | cons p ps ih =>
    obtain ⟨e, alias?⟩ := p
    simp [walkProjections, ih]

theorem walkJoins_eq (js : List Join) :
    walkJoins m js = js.flatMap fun j => j.condition?.toList.flatMap (Expr.walk m) := by
  induction js with
  | nil => rfl
  | cons j js ih => cases j <;> simp [walkJoins, Join.condition?, ih]

theorem walkSortKeys_eq (ks : List SortKey) :
    walkSortKeys m ks =
      ks.flatMap fun k => Piece.keyView m.repeatsPlacedKeys k.nulls? (k.expr.walk m) := by
  induction ks with
  | nil => rfl
  | cons k ks ih =>
    obtain ⟨e, direction, nulls?⟩ := k
    simp [walkSortKeys, ih]

theorem Select.walk_eq (s : Select) :
    s.walk m =
      (s.projections.flatMap fun p => p.expr.walk m) ++
        (s.joins.flatMap fun j => j.condition?.toList.flatMap (Expr.walk m)) ++
        s.filter?.toList.flatMap (Expr.walk m) ++ s.having?.toList.flatMap (Expr.walk m) ++
        s.orderBy.flatMap fun k =>
          Piece.keyView m.repeatsPlacedKeys k.nulls? (k.expr.walk m) := by
  cases s
  simp [Select.walk, walkProjections_eq, walkJoins_eq, walkClause_eq, walkSortKeys_eq]

end Lists

/-! ### What holds of all marks -/

section Mem

variable {m : Marks β} {b : β} {P : β → Prop}

theorem Piece.mem_keyView {separate : Bool} {nulls? : Option NullPlacement} {xs : List β} :
    b ∈ keyView separate nulls? xs ↔ b ∈ xs := by
  unfold keyView
  split <;> simp

/-- A mark of an expression is its own, one of its parts or one of its subquery. -/
theorem Expr.mem_walk {e : Expr} (hb : b ∈ e.walk m) :
    b ∈ m.opening e ∨ b ∈ m.middle e ∨ (∃ c ∈ e.children, b ∈ c.walk m) ∨
      ∃ s, e.query? = some s ∧ b ∈ s.walk m := by
  cases e with
  | listMembership e items negated =>
    cases items with
    | nil => cases hb
    | cons item items =>
      simp only [Expr.walk, walkAll_eq, List.mem_append, List.mem_flatMap] at hb
      simp only [Expr.children, List.mem_cons, exists_eq_or_imp]
      grind
  | _ =>
    simp only [Expr.walk, walkAll_eq, List.mem_append, List.mem_flatMap] at hb
    simp only [Expr.children, Expr.query?, List.mem_cons, exists_eq_or_imp, List.not_mem_nil]
    grind

theorem Select.mem_walk {s : Select} (hb : b ∈ s.walk m) : ∃ e ∈ s.clauseExprs, b ∈ e.walk m := by
  simp only [Select.walk_eq, List.mem_append, List.mem_flatMap, Piece.mem_keyView] at hb
  obtain (((⟨p, hp, hb⟩ | ⟨j, hj, e, he, hb⟩) | ⟨e, he, hb⟩) | ⟨e, he, hb⟩) | ⟨k, hk, hb⟩ := hb
  all_goals simp only [Select.clauseExprs, List.mem_append, List.mem_map, List.mem_filterMap]
  · exact ⟨p.expr, .inl (.inl (.inl (.inl ⟨p, hp, rfl⟩))), hb⟩
  · exact ⟨e, .inl (.inl (.inl (.inr ⟨j, hj, by simpa using he⟩))), hb⟩
  · exact ⟨e, .inl (.inl (.inr he)), hb⟩
  · exact ⟨e, .inl (.inr he), hb⟩
  · exact ⟨k.expr, .inr ⟨k, hk, rfl⟩, hb⟩

variable (h : ∀ e, (∀ b ∈ m.opening e, P b) ∧ ∀ b ∈ m.middle e, P b)
include h

/-- What holds of the marks of each node holds of all marks of an expression. -/
theorem Expr.forall_walk (e : Expr) : ∀ b ∈ e.walk m, P b := by
  refine Expr.induction (P := fun e => ∀ b ∈ e.walk m, P b) (Q := fun s => ∀ b ∈ s.walk m, P b)
    (fun e parts query b hb => ?_) (fun s clauses b hb => ?_) e
  · obtain hb | hb | ⟨c, hc, hb⟩ | ⟨s, hs, hb⟩ := Expr.mem_walk hb
    · exact (h e).1 b hb
    · exact (h e).2 b hb
    · exact parts c hc b hb
    · exact query s hs b hb
  · obtain ⟨e, he, hb⟩ := Select.mem_walk hb
    exact clauses e he b hb

theorem Select.forall_walk (s : Select) : ∀ b ∈ s.walk m, P b := fun _ hb =>
  have ⟨e, _, hb⟩ := Select.mem_walk hb
  e.forall_walk h _ hb

theorem forall_walkSortKeys (ks : List SortKey) : ∀ b ∈ walkSortKeys m ks, P b := by
  intro b hb
  simp only [walkSortKeys_eq, List.mem_flatMap, Piece.mem_keyView] at hb
  obtain ⟨k, -, hb⟩ := hb
  exact k.expr.forall_walk h b hb

theorem forall_walkClause (e? : Option Expr) : ∀ b ∈ walkClause m e?, P b := by
  cases e? with
  | none => exact List.forall_mem_nil _
  | some e => exact e.forall_walk h

theorem Statement.forall_walk (s : Statement) : ∀ b ∈ s.walk m, P b := by
  cases s with
  | select s => exact s.forall_walk h
  | compound c =>
    exact List.forall_mem_append.2
      ⟨List.forall_mem_flatMap.2 fun s _ => s.forall_walk h, forall_walkSortKeys h c.orderBy⟩
  | insert i _ =>
    exact List.forall_mem_flatMap.2 fun row _ =>
      List.forall_mem_flatMap.2 fun e _ => e.forall_walk h
  | update u _ =>
    exact List.forall_mem_append.2
      ⟨List.forall_mem_flatMap.2 fun a _ => a.2.forall_walk h, forall_walkClause h u.filter?⟩
  | delete x _ => exact forall_walkClause h x.condition?

end Mem

end TypedSql
