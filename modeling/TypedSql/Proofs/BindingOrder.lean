import Mathlib.Data.Option.Basic
import TypedSql.Proofs.Literals
import TypedSql.Proofs.Skeleton

/-!
# Which literal a parameter is

The parameters of a compiled statement are literals of the statement, but not each literal once: a
sort key may be bound twice and a separator not at all. `Statement.nodes` are the literals and the
separators, each once, and `Statement.exists_order` says that the parameters are picked from them at
positions which the skeleton of the statement and the dialect fix. So a parameter changes only with
the literal at its own position.
-/

namespace TypedSql

/-- Values are picked from nodes at some positions. -/
def Picks (order : List Nat) (nodes values : List Value) : Prop :=
  order.map (fun i => nodes[i]?) = values.map some

section Picks

variable {order order' : List Nat} {nodes nodes' values values' : List Value}

theorem Picks.lt_length (h : Picks order nodes values) : ∀ i ∈ order, i < nodes.length := by
  intro i hi
  have hmem : nodes[i]? ∈ values.map some := h ▸ List.mem_map_of_mem hi
  obtain ⟨v, -, hv⟩ := List.mem_map.1 hmem
  by_contra hlt
  rw [List.getElem?_eq_none (by omega)] at hv
  cases hv

theorem Picks.append (h : Picks order nodes values) (h' : Picks order' nodes' values') :
    Picks (order ++ order'.map (nodes.length + ·)) (nodes ++ nodes') (values ++ values') := by
  rw [Picks, List.map_append, List.map_append, ← h, ← h', List.map_map]
  congr 1
  · exact List.map_congr_left fun i hi => List.getElem?_append_left (h.lt_length i hi)
  · refine List.map_congr_left fun i _ => ?_
    simp [List.getElem?_append_right]

theorem Picks.twice (h : Picks order nodes values) :
    Picks (order ++ order) nodes (values ++ values) := by
  rw [Picks, List.map_append, List.map_append, h]

theorem picks_all (nodes : List Value) : Picks (List.range nodes.length) nodes nodes := by
  refine List.ext_getElem? fun i => ?_
  by_cases hi : i < nodes.length
  · simp [hi]
  · simp [hi]

/-- Where a value changes, the node it is picked from changes. -/
theorem Picks.node_ne (h : Picks order nodes values) (h' : Picks order nodes' values') {i : Nat}
    (hi : values[i]? ≠ values'[i]?) : ∃ k, order[i]? = some k ∧ nodes[k]? ≠ nodes'[k]? := by
  have hvalue := congrArg (·[i]?) h
  have hvalue' := congrArg (·[i]?) h'
  simp only [List.getElem?_map] at hvalue hvalue'
  cases hk : order[i]? with
  | none =>
    rw [hk] at hvalue hvalue'
    simp only [Option.map_none, eq_comm (a := (none : Option (Option Value))),
      Option.map_eq_none_iff] at hvalue hvalue'
    exact absurd (hvalue.trans hvalue'.symm) hi
  | some k =>
    refine ⟨k, rfl, fun hnodes => hi ?_⟩
    rw [hk, Option.map_some] at hvalue hvalue'
    rw [← hnodes, hvalue] at hvalue'
    exact Option.map_injective (Option.some_injective _) hvalue'

end Picks

/-- The values of a thing are picked from its nodes in an order that its shape fixes. -/
def PicksByShape {α β : Type} (shape : α → β) (nodes values : α → List Value) (a : α) : Prop :=
  ∃ length order, ∀ b, shape b = shape a →
    (nodes b).length = length ∧ Picks order (nodes b) (values b)

namespace PicksByShape

variable {α β γ δ : Type} {shape : α → β} {nodes nodes' values values' : α → List Value} {a : α}

theorem append (h : PicksByShape shape nodes values a) (h' : PicksByShape shape nodes' values' a) :
    PicksByShape shape (fun b => nodes b ++ nodes' b) (fun b => values b ++ values' b) a := by
  obtain ⟨length, order, h⟩ := h
  obtain ⟨length', order', h'⟩ := h'
  refine ⟨length + length', order ++ order'.map (length + ·), fun b hb => ?_⟩
  obtain ⟨hlength, hpicks⟩ := h b hb
  obtain ⟨hlength', hpicks'⟩ := h' b hb
  exact ⟨by rw [List.length_append, hlength, hlength'], hlength ▸ hpicks.append hpicks'⟩

/-- A part of which the shape is fixed by the shape of the whole. -/
theorem of_part {shape' : γ → δ} {nodes values : γ → List Value} (part : α → γ)
    (hpart : ∀ b, shape b = shape a → shape' (part b) = shape' (part a))
    (h : PicksByShape shape' nodes values (part a)) :
    PicksByShape shape (fun b => nodes (part b)) (fun b => values (part b)) a := by
  obtain ⟨length, order, h⟩ := h
  exact ⟨length, order, fun b hb => h (part b) (hpart b hb)⟩

theorem congr (h : PicksByShape shape nodes values a)
    (hnodes : ∀ b, shape b = shape a → nodes' b = nodes b)
    (hvalues : ∀ b, shape b = shape a → values' b = values b) :
    PicksByShape shape nodes' values' a := by
  obtain ⟨length, order, h⟩ := h
  refine ⟨length, order, fun b hb => ?_⟩
  rw [hnodes b hb, hvalues b hb]
  exact h b hb

theorem nil : PicksByShape shape (fun _ => []) (fun _ => []) a :=
  ⟨0, [], fun _ _ => ⟨rfl, rfl⟩⟩

theorem flatMap {as : List α} (h : ∀ a ∈ as, PicksByShape shape nodes values a) :
    PicksByShape (List.map shape) (List.flatMap nodes) (List.flatMap values) as := by
  induction as with
  | nil =>
    refine ⟨0, [], fun bs hbs => ?_⟩
    obtain rfl := List.map_eq_nil_iff.1 hbs
    exact ⟨rfl, rfl⟩
  | cons a as ih =>
    obtain ⟨length, order, ha⟩ := h a (by simp)
    obtain ⟨length', order', has⟩ := ih fun b hb => h b (List.mem_cons_of_mem _ hb)
    refine ⟨length + length', order ++ order'.map (length + ·), fun bs hbs => ?_⟩
    obtain ⟨b, bs, rfl, hb, hbs⟩ := List.map_eq_cons_iff.1 hbs
    obtain ⟨hlength, hpicks⟩ := ha b hb
    obtain ⟨hlength', hpicks'⟩ := has bs hbs
    exact ⟨by rw [List.flatMap_cons, List.length_append, hlength, hlength'],
      hlength ▸ hpicks.append hpicks'⟩

end PicksByShape

/-! ### Expressions and selects -/

namespace Expr

/-- The value that an expression is, if it is a literal. -/
def literal? : Expr → Option Value
  | .literal v _ => some v
  | _ => none

/-- The separator of a text aggregate. -/
def separator? : Expr → Option String
  | .joinedText _ separator => some separator
  | _ => none

/-- The expression is membership in an empty list. -/
def isEmptyMembership : Expr → Bool
  | .listMembership _ [] _ => true
  | _ => false

variable {f : Value → Value}

theorem literal?_mapValues (e : Expr) : (e.mapValues f).literal? = e.literal?.map f := by
  cases e <;> rfl

theorem separator?_mapValues (e : Expr) : (e.mapValues f).separator? = e.separator? := by
  cases e <;> rfl

theorem isEmptyMembership_mapValues (e : Expr) :
    (e.mapValues f).isEmptyMembership = e.isEmptyMembership := by
  cases e with
  | listMembership e items negated => cases items <;> rfl
  | _ => rfl

/-- The separators that are bound under a rule. -/
def boundSeparators (rule : BindingRule) (e : Expr) : List Value :=
  if rule.inlinesSeparators then [] else e.separator?.toList.map .text

/-- The literals of an expression are its own one, those of its parts and those of its subquery. -/
theorem literals_eq_parts (rule : BindingRule) (e : Expr) :
    e.literals rule =
      if e.isEmptyMembership then []
      else e.children.flatMap (Expr.literals rule) ++ e.literal?.toList ++ e.boundSeparators rule ++
        e.query?.toList.flatMap (Select.literals rule) := by
  cases e with
  | listMembership e items negated =>
    cases items <;>
      simp [Expr.literals, isEmptyMembership, children, literal?, boundSeparators, separator?,
        query?, literalsOfAll_eq]
  | _ =>
    simp [Expr.literals, isEmptyMembership, children, literal?, boundSeparators, separator?, query?,
      literalsOfAll_eq]

end Expr

/-- Every literal is bound once, and every separator too. -/
def BindingRule.once : BindingRule :=
  ⟨false, false⟩

/-- The literals and separators of a statement, each once. -/
def Statement.nodes (s : Statement) : List Value :=
  s.literals .once

/-- A sort key in which all literals are NULL. -/
def SortKey.skeleton (k : SortKey) : SortKey :=
  k.mapValues fun _ => .null

section Trees

variable {rule : BindingRule}

theorem picksByShape_literal? (v? : Option Value) :
    PicksByShape (Option.map fun _ : Value => Value.null) Option.toList Option.toList v? := by
  cases v? with
  | none =>
    refine ⟨0, [], fun w? hw => ?_⟩
    obtain rfl := Option.map_eq_none_iff.1 hw
    exact ⟨rfl, rfl⟩
  | some v =>
    refine ⟨1, [0], fun w? hw => ?_⟩
    obtain ⟨w, rfl, -⟩ := Option.map_eq_some_iff.1 hw
    exact ⟨rfl, rfl⟩

/-- The separators that are nodes are all bound or none of them is. -/
theorem picksByShape_boundSeparators (rule : BindingRule) (e : Expr) :
    PicksByShape Expr.skeleton (Expr.boundSeparators .once) (Expr.boundSeparators rule) e := by
  have hsame : ∀ x : Expr, x.skeleton = e.skeleton → x.separator? = e.separator? := by
    intro x hx
    rw [← x.separator?_mapValues (f := fun _ => .null), ← e.separator?_mapValues]
    exact congrArg Expr.separator? hx
  cases h : rule.inlinesSeparators with
  | true =>
    refine ⟨(e.boundSeparators .once).length, [], fun x hx => ?_⟩
    simp [Expr.boundSeparators, h, hsame x hx, Picks]
  | false =>
    refine ⟨(e.boundSeparators .once).length, List.range (e.boundSeparators .once).length,
      fun x hx => ?_⟩
    have hrule : x.boundSeparators rule = e.boundSeparators .once := by
      simp [Expr.boundSeparators, BindingRule.once, h, hsame x hx]
    have honce : x.boundSeparators .once = e.boundSeparators .once := by
      simp [Expr.boundSeparators, hsame x hx]
    rw [hrule, honce]
    exact ⟨rfl, picks_all _⟩

theorem Expr.picksByShape_of_parts (e : Expr)
    (parts : ∀ c ∈ e.children,
      PicksByShape Expr.skeleton (Expr.literals .once) (Expr.literals rule) c)
    (query : ∀ s, e.query? = some s →
      PicksByShape Select.skeleton (Select.literals .once) (Select.literals rule) s) :
    PicksByShape Expr.skeleton (Expr.literals .once) (Expr.literals rule) e := by
  have hempty : ∀ x : Expr, x.skeleton = e.skeleton → x.isEmptyMembership = e.isEmptyMembership := by
    intro x hx
    rw [← x.isEmptyMembership_mapValues (f := fun _ => .null), ← e.isEmptyMembership_mapValues]
    exact congrArg isEmptyMembership hx
  cases h : e.isEmptyMembership with
  | true =>
    refine PicksByShape.nil.congr (fun x hx => ?_) (fun x hx => ?_)
    · rw [literals_eq_parts, hempty x hx, h, if_pos rfl]
    · rw [literals_eq_parts, hempty x hx, h, if_pos rfl]
  | false =>
    have hchildren : PicksByShape Expr.skeleton (fun x => x.children.flatMap (literals .once))
        (fun x => x.children.flatMap (literals rule)) e :=
      .of_part children (fun x hx => by
        rw [← x.children_skeleton, ← e.children_skeleton, hx]) (.flatMap parts)
    have hliteral : PicksByShape Expr.skeleton (fun x => x.literal?.toList)
        (fun x => x.literal?.toList) e :=
      .of_part literal? (fun x hx => by
        rw [← literal?_mapValues, ← literal?_mapValues]
        exact congrArg literal? hx) (picksByShape_literal? e.literal?)
    have hquery : PicksByShape Expr.skeleton
        (fun x => x.query?.toList.flatMap (Select.literals .once))
        (fun x => x.query?.toList.flatMap (Select.literals rule)) e :=
      .of_part (fun x : Expr => x.query?.toList) (fun x hx => by
        rw [← Option.toList_map, ← Option.toList_map, ← x.query?_skeleton, ← e.query?_skeleton, hx])
        (.flatMap fun s hs => query s (by simpa using hs))
    refine (((hchildren.append hliteral).append (picksByShape_boundSeparators rule e)).append
      hquery).congr (fun x hx => ?_) (fun x hx => ?_)
    · rw [literals_eq_parts, hempty x hx, h]
      rfl
    · rw [literals_eq_parts, hempty x hx, h]
      rfl

/-- The expressions of a select but for its sort keys, clause by clause. -/
def Select.unsortedExprs (s : Select) : List Expr :=
  s.projections.map Projection.expr ++ s.joins.filterMap Join.condition? ++ s.filter?.toList ++
    s.having?.toList

theorem Select.unsortedExprs_skeleton (s : Select) :
    s.skeleton.unsortedExprs = s.unsortedExprs.map Expr.skeleton := by
  have hjoins : ((s.joins.map (Join.mapValues fun _ => .null)).filterMap Join.condition?) =
      (s.joins.filterMap Join.condition?).map Expr.skeleton := by
    rw [List.filterMap_map, List.map_filterMap]
    exact List.filterMap_congr fun j _ => j.condition?_mapValues
  simp only [unsortedExprs, skeleton, mapValues_eq, List.map_append, hjoins, Option.toList_map,
    List.map_map]
  rfl

/-- The literals of sort keys. -/
theorem picksByShape_sortKeys {ks : List SortKey}
    (h : ∀ k ∈ ks, PicksByShape Expr.skeleton (Expr.literals .once) (Expr.literals rule) k.expr) :
    PicksByShape (List.map SortKey.skeleton) (literalsOfSortKeys .once)
      (literalsOfSortKeys rule) ks := by
  have hkey : ∀ k ∈ ks, PicksByShape SortKey.skeleton
      (fun k => Piece.keyView false k.nulls? (k.expr.literals .once))
      (fun k => Piece.keyView rule.repeatsPlacedKeys k.nulls? (k.expr.literals rule)) k := by
    intro k hk
    obtain ⟨length, order, horder⟩ := h k hk
    have hnodes : ∀ xs : List Value, Piece.keyView false k.nulls? xs = xs := fun xs => by
      simp [Piece.keyView]
    -- Whether a key is written twice does not depend on its values.
    refine ⟨length, if k.nulls?.isSome && rule.repeatsPlacedKeys then order ++ order else order,
      fun l hl => ?_⟩
    obtain ⟨hlength, hpicks⟩ := horder l.expr (congrArg SortKey.expr hl)
    have hnulls : l.nulls? = k.nulls? := congrArg (fun k => k.nulls?) hl
    simp only [hnulls, hnodes]
    refine ⟨hlength, ?_⟩
    unfold Piece.keyView
    split
    · exact hpicks.twice
    · exact hpicks
  refine (PicksByShape.flatMap hkey).congr (fun ls _ => ?_) (fun ls _ => ?_)
  · exact literalsOfSortKeys_eq ls
  · exact literalsOfSortKeys_eq ls

theorem Select.picksByShape_of_clauses (s : Select)
    (clauses : ∀ e ∈ s.clauseExprs,
      PicksByShape Expr.skeleton (Expr.literals .once) (Expr.literals rule) e) :
    PicksByShape Select.skeleton (Select.literals .once) (Select.literals rule) s := by
  have hsplit : s.clauseExprs = s.unsortedExprs ++ s.orderBy.map SortKey.expr := rfl
  rw [hsplit, List.forall_mem_append, List.forall_mem_map] at clauses
  have hunsorted : PicksByShape Select.skeleton
      (fun x => x.unsortedExprs.flatMap (Expr.literals .once))
      (fun x => x.unsortedExprs.flatMap (Expr.literals rule)) s :=
    .of_part unsortedExprs (fun x hx => by
      rw [← x.unsortedExprs_skeleton, ← s.unsortedExprs_skeleton, hx]) (.flatMap clauses.1)
  have hsorted : PicksByShape Select.skeleton (fun x => literalsOfSortKeys .once x.orderBy)
      (fun x => literalsOfSortKeys rule x.orderBy) s :=
    .of_part orderBy (fun x hx => by
      rw [skeleton, skeleton, mapValues_eq, mapValues_eq] at hx
      exact congrArg orderBy hx) (picksByShape_sortKeys clauses.2)
  have hliterals : ∀ (rule : BindingRule) (x : Select), x.literals rule =
      x.unsortedExprs.flatMap (Expr.literals rule) ++ literalsOfSortKeys rule x.orderBy := by
    intro rule x
    simp [literals_eq, unsortedExprs, literalsOfSortKeys_eq, List.flatMap_map,
      List.filterMap_eq_flatMap_toList, List.flatMap_assoc]
  exact (hunsorted.append hsorted).congr (fun x _ => hliterals _ x) (fun x _ => hliterals _ x)

/-- The bound literals of an expression are picked from all of its literals in an order that its
skeleton fixes. -/
theorem Expr.picksByShape (rule : BindingRule) (e : Expr) :
    PicksByShape Expr.skeleton (Expr.literals .once) (Expr.literals rule) e :=
  Expr.induction Expr.picksByShape_of_parts Select.picksByShape_of_clauses e

theorem Select.picksByShape (rule : BindingRule) (s : Select) :
    PicksByShape Select.skeleton (Select.literals .once) (Select.literals rule) s :=
  s.picksByShape_of_clauses fun e _ => e.picksByShape rule

/-! ### Statements -/

/-- The literals of a clause that may be missing. -/
theorem picksByShape_clause (e? : Option Expr) :
    PicksByShape (Option.map Expr.skeleton) (literalsOfClause .once) (literalsOfClause rule) e? := by
  cases e? with
  | none =>
    refine ⟨0, [], fun x? hx => ?_⟩
    obtain rfl := Option.map_eq_none_iff.1 hx
    exact ⟨rfl, rfl⟩
  | some e =>
    obtain ⟨length, order, h⟩ := e.picksByShape rule
    refine ⟨length, order, fun x? hx => ?_⟩
    obtain ⟨x, rfl, hskeleton⟩ := Option.map_eq_some_iff.1 hx
    exact h x hskeleton

theorem CompoundSelect.picksByShape (rule : BindingRule) (c : CompoundSelect) :
    PicksByShape (CompoundSelect.mapValues fun _ => .null) (CompoundSelect.literals .once)
      (CompoundSelect.literals rule) c := by
  have hmembers : ∀ x : CompoundSelect,
      (x.mapValues fun _ => .null).members = x.members.map Select.skeleton := by
    intro x
    simp only [members, mapValues, List.map_cons, List.map_map]
    rfl
  refine PicksByShape.append
    (.of_part members (fun x hx => ?_) (.flatMap fun s _ => s.picksByShape rule))
    (.of_part orderBy (fun x hx => ?_) (picksByShape_sortKeys fun k _ => k.expr.picksByShape rule))
  · rw [← hmembers, ← hmembers, hx]
  · exact congrArg orderBy hx

theorem Insert.picksByShape (rule : BindingRule) (i : Insert) :
    PicksByShape (Insert.mapValues fun _ => .null) (Insert.literals .once)
      (Insert.literals rule) i :=
  .of_part rows (fun _ hx => congrArg rows hx)
    (.flatMap fun _ _ => .flatMap fun e _ => e.picksByShape rule)

theorem Update.picksByShape (rule : BindingRule) (u : Update) :
    PicksByShape (Update.mapValues fun _ => .null) (Update.literals .once)
      (Update.literals rule) u := by
  have hassignment : ∀ a ∈ u.assignments,
      PicksByShape (fun a : Column × Expr => (a.1, a.2.skeleton)) (fun a => a.2.literals .once)
        (fun a => a.2.literals rule) a := fun a _ =>
    .of_part Prod.snd (fun b hb => congrArg Prod.snd hb) (a.2.picksByShape rule)
  exact PicksByShape.append
    (.of_part assignments (fun x hx => congrArg assignments hx) (.flatMap hassignment))
    (.of_part filter? (fun x hx => congrArg filter? hx) (picksByShape_clause u.filter?))

theorem Delete.picksByShape (rule : BindingRule) (x : Delete) :
    PicksByShape (Delete.mapValues fun _ => .null) (Delete.literals .once)
      (Delete.literals rule) x := by
  have hcondition : ∀ y : Delete,
      (y.mapValues fun _ => .null).condition? = y.condition?.map Expr.skeleton := by
    rintro ⟨table, extent, returning⟩
    cases extent <;> rfl
  refine .of_part condition? (fun y hy => ?_) (picksByShape_clause x.condition?)
  rw [← hcondition, ← hcondition, hy]

/-- The bound literals of a statement are picked from its nodes in an order that its skeleton
fixes. -/
theorem Statement.picksByShape (rule : BindingRule) (s : Statement) :
    PicksByShape Statement.skeleton Statement.nodes (Statement.literals rule) s := by
  -- A statement of the same skeleton is of the same kind.
  cases s with
  | select s =>
    obtain ⟨length, order, h⟩ := s.picksByShape rule
    refine ⟨length, order, fun t ht => ?_⟩
    cases t with
    | select t => exact h t (Statement.select.inj ht)
    | _ => cases ht
  | compound c =>
    obtain ⟨length, order, h⟩ := c.picksByShape rule
    refine ⟨length, order, fun t ht => ?_⟩
    cases t with
    | compound t => exact h t (Statement.compound.inj ht)
    | _ => cases ht
  | insert i complete =>
    obtain ⟨length, order, h⟩ := i.picksByShape rule
    refine ⟨length, order, fun t ht => ?_⟩
    cases t with
    | insert t complete => exact h t (Statement.insert.inj ht)
    | _ => cases ht
  | update u complete =>
    obtain ⟨length, order, h⟩ := u.picksByShape rule
    refine ⟨length, order, fun t ht => ?_⟩
    cases t with
    | update t complete => exact h t (Statement.update.inj ht)
    | _ => cases ht
  | delete x complete =>
    obtain ⟨length, order, h⟩ := x.picksByShape rule
    refine ⟨length, order, fun t ht => ?_⟩
    cases t with
    | delete t complete => exact h t (Statement.delete.inj ht)
    | _ => cases ht

end Trees

/-- **The parameters of a statement are picked from its literals in an order that its skeleton and
the dialect fix.** -/
theorem Statement.exists_order (d : Dialect) (s : Statement) :
    ∃ order, ∀ t : Statement, t.skeleton = s.skeleton →
      Picks order t.nodes (t.compile d).parameters := by
  obtain ⟨length, order, h⟩ := s.picksByShape d.bindingRule
  refine ⟨order, fun t ht => ?_⟩
  have hparameters : (t.compile d).parameters = t.literals d.bindingRule := t.parameters_pieces d
  rw [hparameters]
  exact (h t ht).2

end TypedSql
