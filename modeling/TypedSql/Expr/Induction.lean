import TypedSql.Expr.Basic

/-!
# Induction on expressions and selects

`Expr.children` are the expressions directly inside an expression and `Expr.query?` is the subquery
that it holds. A property of all expressions and a property of all selects follow together from two
steps: from the children and the subquery to the expression, and from the expressions of its clauses
to the select.
-/

namespace TypedSql

namespace Expr

/-- The expressions directly inside an expression, in the order in which they are written. -/
def children : Expr → List Expr
  | .column _ | .literal _ _ | .rowCount | .existence _ _ => []
  | .negation e | .complement e | .nullTest e _ => [e]
  | .valueCount _ e | .apply _ e | .joinedText e _ => [e]
  | .binary l _ r => [l, r]
  | .junction _ parts => parts
  | .orElse e fallback => [e, fallback]
  | .extremum _ first second rest => first :: second :: rest
  | .listMembership e items _ => e :: items
  | .rowMembership e _ _ | .quantified e _ _ _ => [e]
  | .range e low high _ => [e, low, high]

/-- The subquery of an expression. -/
def query? : Expr → Option Select
  | .rowMembership _ query _ | .existence query _ | .quantified _ _ _ query => some query
  | _ => none

end Expr

/-- The expressions of a select, clause by clause. -/
theorem Select.forall_clauseExprs {P : Expr → Prop} (s : Select) :
    (∀ e ∈ s.clauseExprs, P e) ↔
      (∀ p ∈ s.projections, P p.expr) ∧ (∀ j ∈ s.joins, ∀ e ∈ j.condition?.toList, P e) ∧
        (∀ e ∈ s.filter?.toList, P e) ∧ (∀ e ∈ s.having?.toList, P e) ∧
        ∀ k ∈ s.orderBy, P k.expr := by
  simp only [Select.clauseExprs, List.forall_mem_append, List.forall_mem_map,
    List.forall_mem_filterMap, Option.mem_toList, and_assoc]

section Induction

set_option linter.unusedSectionVars false

variable {P : Expr → Prop} {Q : Select → Prop}
  (expr : ∀ e : Expr, (∀ c ∈ e.children, P c) → (∀ s, e.query? = some s → Q s) → P e)
  (select : ∀ s : Select, (∀ e ∈ s.clauseExprs, P e) → Q s)

include expr select

mutual

/-- A property of all expressions, by induction on expressions and selects together. -/
theorem Expr.induction : ∀ e : Expr, P e
  | .column _ => expr _ nofun nofun
  | .literal _ _ => expr _ nofun nofun
  | .rowCount => expr _ nofun nofun
  | .negation e => expr _ (List.forall_mem_singleton.2 (Expr.induction e)) nofun
  | .complement e => expr _ (List.forall_mem_singleton.2 (Expr.induction e)) nofun
  | .nullTest e _ => expr _ (List.forall_mem_singleton.2 (Expr.induction e)) nofun
  | .valueCount _ e => expr _ (List.forall_mem_singleton.2 (Expr.induction e)) nofun
  | .apply _ e => expr _ (List.forall_mem_singleton.2 (Expr.induction e)) nofun
  | .joinedText e _ => expr _ (List.forall_mem_singleton.2 (Expr.induction e)) nofun
  | .binary l _ r =>
    expr _
      (List.forall_mem_cons.2 ⟨Expr.induction l, List.forall_mem_singleton.2 (Expr.induction r)⟩)
      nofun
  | .junction _ parts => expr _ (Expr.induction_list parts) nofun
  | .orElse e fallback =>
    expr _
      (List.forall_mem_cons.2
        ⟨Expr.induction e, List.forall_mem_singleton.2 (Expr.induction fallback)⟩)
      nofun
  | .extremum _ first second rest =>
    expr _
      (List.forall_mem_cons.2
        ⟨Expr.induction first,
          List.forall_mem_cons.2 ⟨Expr.induction second, Expr.induction_list rest⟩⟩)
      nofun
  | .listMembership e items _ =>
    expr _ (List.forall_mem_cons.2 ⟨Expr.induction e, Expr.induction_list items⟩) nofun
  | .range e low high _ =>
    expr _
      (List.forall_mem_cons.2
        ⟨Expr.induction e,
          List.forall_mem_cons.2
            ⟨Expr.induction low, List.forall_mem_singleton.2 (Expr.induction high)⟩⟩)
      nofun
  | .rowMembership e query _ =>
    expr _ (List.forall_mem_singleton.2 (Expr.induction e))
      fun _ h => Option.some.inj h ▸ Select.induction query
  | .existence query _ => expr _ nofun fun _ h => Option.some.inj h ▸ Select.induction query
  | .quantified e _ _ query =>
    expr _ (List.forall_mem_singleton.2 (Expr.induction e))
      fun _ h => Option.some.inj h ▸ Select.induction query

/-- The property of the members of a list. -/
theorem Expr.induction_list : ∀ es : List Expr, ∀ e ∈ es, P e
  | [] => nofun
  | e :: es => List.forall_mem_cons.2 ⟨Expr.induction e, Expr.induction_list es⟩

/-- The property of a clause that may be missing. -/
theorem Expr.induction_option : ∀ e? : Option Expr, ∀ e ∈ e?.toList, P e
  | none => nofun
  | some e => List.forall_mem_singleton.2 (Expr.induction e)

/-- The property of the expressions of result columns. -/
theorem Expr.induction_projections : ∀ ps : List Projection, ∀ e ∈ ps.map Projection.expr, P e
  | [] => nofun
  | ⟨e, _⟩ :: ps => List.forall_mem_cons.2 ⟨Expr.induction e, Expr.induction_projections ps⟩

/-- The property of the conditions of joins. -/
theorem Expr.induction_joins : ∀ js : List Join, ∀ e ∈ js.filterMap Join.condition?, P e
  | [] => nofun
  | .on _ _ condition :: js =>
    List.forall_mem_cons.2 ⟨Expr.induction condition, Expr.induction_joins js⟩
  | .cross _ :: js => Expr.induction_joins js

/-- The property of the expressions of sort keys. -/
theorem Expr.induction_sortKeys : ∀ ks : List SortKey, ∀ e ∈ ks.map SortKey.expr, P e
  | [] => nofun
  | ⟨e, _, _⟩ :: ks => List.forall_mem_cons.2 ⟨Expr.induction e, Expr.induction_sortKeys ks⟩

/-- A property of all selects, by induction on expressions and selects together. -/
theorem Select.induction : ∀ s : Select, Q s
  | ⟨_, projections, _, _, joins, filter?, _, having?, orderBy, _, _⟩ =>
    select _ fun e he => by
      simp only [Select.clauseExprs, List.mem_append] at he
      rcases he with (((he | he) | he) | he) | he
      · exact Expr.induction_projections projections e he
      · exact Expr.induction_joins joins e he
      · exact Expr.induction_option filter? e he
      · exact Expr.induction_option having? e he
      · exact Expr.induction_sortKeys orderBy e he

end

end Induction

end TypedSql
