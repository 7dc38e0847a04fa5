import TypedSql.Proofs.Building

/-!
# What built expressions are made of

The functions that build expressions check what they are given and then add one node. `Expr.Formed`
says of a node which function added it, to what, and that the checks passed: it is the inversion of
`Expr.Built`, one constructor for each node (`Expr.Built.formed`). The parts of a built expression
are built themselves, or are values that were encoded beside another part; the expressions in the
clauses of a built select are built (`Select.Built.clauses`), and `Select.Built.of_steps` is the
induction on its steps.

`Expr.Everywhere` says that a property of expressions holds of every node and one of selects of every
select, at any depth. Every node of what is built is built or encoded and every select in it is
built (`Expr.Built.everywhere`), so that laws about one node or one select hold all over a statement
by `Statement.Everywhere.imp`.
-/

namespace TypedSql

namespace Expr

/-- A value with the type that it was encoded with. -/
def IsEncoded (e : Expr) : Prop :=
  ∃ (type : ColumnType) (v w : Value), type.encode v = .ok w ∧ e = .literal w (some type)

/-- An expression that is built, or a value that was encoded beside one. -/
def IsHeld (tables : Set Table) (e : Expr) : Prop :=
  e.Built tables ∨ e.IsEncoded

/-- A node over built expressions, as the function that adds it has left it. -/
inductive Formed (tables : Set Table) : Expr → Prop
  | column {c : Column} (hc : c.IsOf tables) : Formed tables (.column c)
  | untyped (v : Value) : Formed tables (.literal v none)
  | negation {e : Expr} (he : e.Built tables) (h : e.neg = .ok (.negation e)) :
      Formed tables (.negation e)
  | complement {e : Expr} (he : e.Built tables) (h : e.not = .ok (.complement e)) :
      Formed tables (.complement e)
  | nullTest {e : Expr} (negated : Bool) (he : e.Built tables) : Formed tables (.nullTest e negated)
  | binary {left right : Expr} {op : BinaryOp} {operand : Operand} (hleft : left.Built tables)
      (hoperand : ∀ x, operand.expr? = some x → x.Built tables)
      (h : left.operate op operand = .ok (.binary left op right)) :
      Formed tables (.binary left op right)
  | junction {kind : Connective} {parts : List Expr} (hparts : ∀ part ∈ parts,
      part.Built tables ∧ part.class? = some .boolean ∧ part.partsFor kind = [part]) :
      Formed tables (.junction kind parts)
  | rowCount : Formed tables .rowCount
  | valueCount {e : Expr} (distinct : Bool) (he : e.Built tables) :
      Formed tables (.valueCount distinct e)
  | apply {g : UnaryFunction} {e : Expr} (he : e.Built tables) (h : call g e = .ok (.apply g e)) :
      Formed tables (.apply g e)
  | orElse {e fallback : Expr} {operand : Operand} (he : e.Built tables)
      (hoperand : ∀ x, operand.expr? = some x → x.Built tables)
      (h : e.coalesce operand = .ok (.orElse e fallback)) : Formed tables (.orElse e fallback)
  | extremum {g : Extremum} {first second : Expr} {rest : List Expr} {operands : List Operand}
      (hfirst : first.Built tables)
      (hoperands : ∀ operand ∈ operands, ∀ x, operand.expr? = some x → x.Built tables)
      (h : pick g first operands = .ok (.extremum g first second rest)) :
      Formed tables (.extremum g first second rest)
  | joinedText {e : Expr} {separator : String} (he : e.Built tables)
      (h : e.stringAgg separator = .ok (.joinedText e separator)) :
      Formed tables (.joinedText e separator)
  | listMembership {e : Expr} {items : List Expr} {negated : Bool} {operands : List Operand}
      (he : e.Built tables)
      (hoperands : ∀ operand ∈ operands, ∀ x, operand.expr? = some x → x.Built tables)
      (h : e.inList operands negated = .ok (.listMembership e items negated)) :
      Formed tables (.listMembership e items negated)
  | rowMembership {e : Expr} {query : Select} {negated : Bool} (he : e.Built tables)
      (hquery : query.Built tables)
      (h : e.inSelect query negated = .ok (.rowMembership e query negated)) :
      Formed tables (.rowMembership e query negated)
  | range {e low high : Expr} {negated : Bool} {lower upper : Operand} (he : e.Built tables)
      (hlower : ∀ x, lower.expr? = some x → x.Built tables)
      (hupper : ∀ x, upper.expr? = some x → x.Built tables)
      (h : e.between lower upper negated = .ok (.range e low high negated)) :
      Formed tables (.range e low high negated)
  | existence {query : Select} (negated : Bool) (hquery : query.Built tables) :
      Formed tables (.existence query negated)
  | quantified {e : Expr} {op : Comparison} {quantifier : Quantifier} {query : Select}
      (he : e.Built tables) (hquery : query.Built tables)
      (h : e.quantify (.compare op) quantifier query = .ok (.quantified e op quantifier query)) :
      Formed tables (.quantified e op quantifier query)

section Formed

variable {tables : Set Table} {e f : Expr}

/-- The parts that a condition adds to a chain are conditions, and no chains of that kind. -/
theorem Formed.partsFor {kind : Connective} {part : Expr} (he : e.Built tables)
    (hformed : e.Formed tables) (hclass : e.class? = some .boolean)
    (hpart : part ∈ e.partsFor kind) :
    part.Built tables ∧ part.class? = some .boolean ∧ part.partsFor kind = [part] := by
  unfold Expr.partsFor at hpart
  split at hpart
  · split at hpart
    · rename_i hkind
      subst hkind
      cases hformed with
      | junction hparts => exact hparts part hpart
    · rename_i hkind
      obtain rfl := List.mem_singleton.1 hpart
      exact ⟨he, hclass, if_neg hkind⟩
  · rename_i hjunction
    obtain rfl := List.mem_singleton.1 hpart
    refine ⟨he, hclass, ?_⟩
    unfold Expr.partsFor
    split
    · exact absurd rfl (hjunction _ _)
    · rfl

/-- Which function has added the node of a built expression. -/
theorem Built.formed {e : Expr} : e.Built tables → e.Formed tables
  | .column hc => .column hc
  | .ofValue v => .untyped v
  | .isNull he => .nullTest _ he
  | .isNotNull he => .nullTest _ he
  | .neg he h => by
    obtain ⟨-, rfl⟩ := neg_eq_ok h
    exact .negation he h
  | .not he h => by
    obtain ⟨-, rfl⟩ := not_eq_ok h
    exact .complement he h
  | .operate he hoperand h => by
    -- A comparison with NULL comes out as a test for NULL, without a right operand.
    obtain ⟨-, ⟨-, ⟨-, rfl⟩ | ⟨-, rfl⟩⟩ | ⟨-, right, -, -, -, -, rfl⟩⟩ := operate_eq_ok h
    · exact .nullTest _ he
    · exact .nullTest _ he
    · exact .binary he hoperand h
  | .between he hlow hhigh h => by
    obtain ⟨-, -, l, r, -, -, -, -, rfl⟩ := between_eq_ok h
    exact .range he hlow hhigh h
  | .inList he hoperands h => by
    obtain ⟨-, items, -, rfl⟩ := inList_eq_ok h
    exact .listMembership he hoperands h
  | .inSelect he hquery h => by
    obtain ⟨-, rfl⟩ := inSelect_eq_ok h
    exact .rowMembership he hquery h
  | .quantify he hquery h => by
    obtain ⟨-, comparison, rfl, -, -, rfl⟩ := quantify_eq_ok h
    exact .quantified he hquery h
  | .existence negated hquery => .existence negated hquery
  | .chain hes h => by
    have hformed := fun e he => Built.formed (hes e he)
    obtain ⟨hclass, rfl⟩ := chain_eq_ok h
    refine .junction fun part hpart => ?_
    obtain ⟨e, he, hpart⟩ := List.mem_flatMap.1 hpart
    exact (hformed e he).partsFor (hes e he) (hclass e he) hpart
  | .rowCount => .rowCount
  | .valueCount distinct he => .valueCount distinct he
  | .call he h => by
    obtain ⟨-, rfl⟩ := call_eq_ok h
    exact .apply he h
  | .coalesce he hoperand h => by
    obtain ⟨fallback, -, -, rfl⟩ := coalesce_eq_ok h
    exact .orElse he hoperand h
  | .pick he hoperands h => by
    have hformed := Built.formed he
    obtain ⟨-, rfl | ⟨second, rest, -, rfl⟩⟩ := pick_eq_ok h
    · exact hformed
    · exact .extremum he hoperands h
  | .stringAgg he h => by
    obtain ⟨-, rfl⟩ := stringAgg_eq_ok h
    exact .joinedText he h

/-- An expression beside another is given, or is a value. -/
theorem isHeld_of_resolve {operand : Operand} (h : e.resolve operand = .ok f)
    (hoperand : ∀ x, operand.expr? = some x → x.Built tables) : f.IsHeld tables := by
  obtain rfl | ⟨v, -, h⟩ := resolve_eq_ok h
  · exact .inl (hoperand f rfl)
  · obtain ⟨-, rfl⟩ | ⟨type, w, -, hw, rfl⟩ := resolveValue_eq_ok h
    · exact .inl (.ofValue v)
    · exact .inr ⟨type, v, w, hw, rfl⟩

/-- The parts of a built expression are built, or are encoded values. -/
theorem Built.children (h : e.Built tables) :
    ∀ x ∈ e.children, x.IsHeld tables := by
  cases h.formed with
  | column | untyped | rowCount | existence => exact List.forall_mem_nil _
  | negation he | complement he | nullTest _ he | valueCount _ he | apply he | joinedText he
  | rowMembership he | quantified he => exact List.forall_mem_singleton.2 (.inl he)
  | binary hleft hoperand hok =>
    obtain ⟨-, ⟨-, ⟨-, h⟩ | ⟨-, h⟩⟩ | ⟨-, right, -, hright, -, -, h⟩⟩ := operate_eq_ok hok <;>
      cases h
    exact List.forall_mem_cons.2 ⟨.inl hleft,
      List.forall_mem_singleton.2 (isHeld_of_resolve hright hoperand)⟩
  | junction hparts => exact fun part hpart => .inl (hparts part hpart).1
  | orElse he hoperand hok =>
    obtain ⟨fallback, hfallback, -, h⟩ := coalesce_eq_ok hok
    cases h
    exact List.forall_mem_cons.2 ⟨.inl he,
      List.forall_mem_singleton.2 (isHeld_of_resolve hfallback hoperand)⟩
  | extremum hfirst hoperands hok =>
    refine List.forall_mem_cons.2 ⟨.inl hfirst, fun x hx => ?_⟩
    obtain ⟨operand, hmem, hcounterpart⟩ := (pick_eq_extremum hok).2 x hx
    exact isHeld_of_resolve (counterpart_eq_ok hcounterpart).2.1
      (hoperands operand hmem)
  | listMembership he hoperands hok =>
    obtain ⟨-, items, hitems, h⟩ := inList_eq_ok hok
    cases h
    refine List.forall_mem_cons.2 ⟨.inl he, fun x hx => ?_⟩
    obtain ⟨operand, hmem, hcounterpart⟩ := hitems x hx
    exact isHeld_of_resolve (counterpart_eq_ok hcounterpart).2.1
      (hoperands operand hmem)
  | range he hlower hupper hok =>
    obtain ⟨-, -, low, high, hlow, hhigh, -, -, h⟩ := between_eq_ok hok
    cases h
    exact List.forall_mem_cons.2 ⟨.inl he, List.forall_mem_cons.2
      ⟨isHeld_of_resolve hlow hlower,
        List.forall_mem_singleton.2 (isHeld_of_resolve hhigh hupper)⟩⟩

theorem Built.query (h : e.Built tables) {s : Select} (hs : e.query? = some s) :
    s.Built tables := by
  cases h.formed with
  | rowMembership _ hquery | existence _ hquery | quantified _ hquery =>
    cases hs
    exact hquery
  | _ => cases hs

/-- What is attached to a built condition is built. -/
theorem Built.attach {condition? : Option Expr} (h : Expr.attach condition? e = .ok f)
    (hcondition : ∀ x ∈ condition?, x.Built tables) (he : e.Built tables) : f.Built tables := by
  obtain rfl | ⟨condition, hmem, h⟩ := attach_eq_ok h
  · exact he
  · exact .chain
      (List.forall_mem_cons.2 ⟨hcondition condition hmem, List.forall_mem_singleton.2 he⟩) h

end Formed

end Expr

namespace Select

section Steps

variable {tables : Set Table} {s s' : Select}

/-- A step adds nothing to the clauses but what it is given. -/
theorem built_clauses_step {st : Step} (h : s.step st = .ok s')
    (hs : ∀ e ∈ s.clauseExprs, e.Built tables) (hst : ∀ e ∈ st.exprs, e.Built tables) :
    ∀ e ∈ s'.clauseExprs, e.Built tables := by
  rw [forall_clauseExprs] at hs ⊢
  obtain ⟨hprojections, hjoins, hfilter, hhaving, horder⟩ := hs
  cases st with
  | project es =>
    obtain ⟨-, rfl⟩ := project_eq_ok h
    refine ⟨List.forall_mem_append.2 ⟨hprojections, ?_⟩, hjoins, hfilter, hhaving, horder⟩
    exact List.forall_mem_map.2 hst
  | projectAs e name =>
    obtain ⟨-, rfl⟩ := projectAs_eq_ok h
    refine ⟨List.forall_mem_append.2 ⟨hprojections, ?_⟩, hjoins, hfilter, hhaving, horder⟩
    exact List.forall_mem_singleton.2 (hst e (by simp [Step.exprs]))
  | join kind t condition =>
    obtain ⟨-, -, -, rfl⟩ := join_eq_ok h
    refine ⟨hprojections, List.forall_mem_append.2 ⟨hjoins, ?_⟩, hfilter, hhaving, horder⟩
    exact List.forall_mem_singleton.2 hst
  | crossJoin t =>
    obtain ⟨-, rfl⟩ := crossJoin_eq_ok h
    exact ⟨hprojections,
      List.forall_mem_append.2 ⟨hjoins, List.forall_mem_singleton.2 (List.forall_mem_nil _)⟩,
      hfilter, hhaving, horder⟩
  | filterBy e =>
    obtain ⟨-, -, filter, hattach, rfl⟩ := filterBy_eq_ok h
    refine ⟨hprojections, hjoins, List.forall_mem_singleton.2 ?_, hhaving, horder⟩
    exact .attach hattach (by simpa using hfilter) (hst e (by simp [Step.exprs]))
  | group columns =>
    obtain ⟨-, rfl⟩ := group_eq_ok h
    exact ⟨hprojections, hjoins, hfilter, hhaving, horder⟩
  | havingBy e =>
    obtain ⟨-, -, having, hattach, rfl⟩ := havingBy_eq_ok h
    refine ⟨hprojections, hjoins, hfilter, List.forall_mem_singleton.2 ?_, horder⟩
    exact .attach hattach (by simpa using hhaving) (hst e (by simp [Step.exprs]))
  | sort k =>
    obtain ⟨-, rfl⟩ := sort_eq_ok h
    refine ⟨hprojections, hjoins, hfilter, hhaving, List.forall_mem_append.2 ⟨horder, ?_⟩⟩
    exact List.forall_mem_singleton.2 (hst k.expr (by simp [Step.exprs]))
  -- The other steps add no expression.
  | _ =>
    cases h
    exact ⟨hprojections, hjoins, hfilter, hhaving, horder⟩

/-- The expressions in the clauses of a built select are built. -/
theorem Built.clauses {s : Select} : s.Built tables → ∀ e ∈ s.clauseExprs, e.Built tables
  | .ofTable _ => List.forall_mem_nil _
  | .step hs hexprs _ _ h => built_clauses_step h (Built.clauses hs) hexprs

/-- What holds of the selects from one table and is preserved by every step holds of every built
select. -/
theorem Built.of_steps {M : Select → Prop} (htable : ∀ t ∈ tables, M (.ofTable t))
    (hstep : ∀ {s s' : Select} {st : Step}, M s → (∀ e ∈ st.exprs, e.Built tables) →
      (∀ t ∈ st.tables, t ∈ tables) → (∀ c ∈ st.columns, c.IsOf tables) → s.step st = .ok s' →
      M s')
    {s : Select} : s.Built tables → M s
  | .ofTable ht => htable _ ht
  | .step hs hexprs htables hcolumns h =>
    hstep (Built.of_steps htable hstep hs) hexprs htables hcolumns h

end Steps

end Select

/-! ### All over an expression, a select or a statement -/

mutual

/-- All expressions in an expression, at any depth, have one property, and all selects another. -/
inductive Expr.Everywhere (N : Expr → Prop) (M : Select → Prop) : Expr → Prop
  | intro {e : Expr} (here : N e) (children : ∀ x ∈ e.children, Expr.Everywhere N M x)
      (query : ∀ s, e.query? = some s → Select.Everywhere N M s) : Expr.Everywhere N M e

/-- A select and all selects in it have a property, and all expressions in it another. -/
inductive Select.Everywhere (N : Expr → Prop) (M : Select → Prop) : Select → Prop
  | intro {s : Select} (here : M s) (clauses : ∀ e ∈ s.clauseExprs, Expr.Everywhere N M e) :
      Select.Everywhere N M s

end

/-- The same of the members and the sort keys of a compound select. -/
structure CompoundSelect.Everywhere (N : Expr → Prop) (M : Select → Prop) (c : CompoundSelect) :
    Prop where
  members : ∀ s ∈ c.members, s.Everywhere N M
  orderBy : ∀ k ∈ c.orderBy, k.expr.Everywhere N M

/-- The same of the values of an insert. -/
structure Insert.Everywhere (N : Expr → Prop) (M : Select → Prop) (i : Insert) : Prop where
  rows : ∀ row ∈ i.rows, ∀ e ∈ row, e.Everywhere N M

/-- The same of the values and the condition of an update. -/
structure Update.Everywhere (N : Expr → Prop) (M : Select → Prop) (u : Update) : Prop where
  assignments : ∀ a ∈ u.assignments, a.2.Everywhere N M
  filter : ∀ e ∈ u.filter?, e.Everywhere N M

/-- The same of the condition of a delete. -/
structure Delete.Everywhere (N : Expr → Prop) (M : Select → Prop) (x : Delete) : Prop where
  condition : ∀ e ∈ x.condition?, e.Everywhere N M

/-- All expressions in a statement, at any depth, have one property, and all selects another. -/
def Statement.Everywhere (N : Expr → Prop) (M : Select → Prop) : Statement → Prop
  | .select s => s.Everywhere N M
  | .compound c => c.Everywhere N M
  | .insert i _ => i.Everywhere N M
  | .update u _ => u.Everywhere N M
  | .delete x _ => x.Everywhere N M

section Everywhere

variable {N N' : Expr → Prop} {M M' : Select → Prop} {e : Expr} {s : Select}

theorem Expr.Everywhere.here (h : e.Everywhere N M) : N e := by
  cases h
  assumption

theorem Expr.Everywhere.children (h : e.Everywhere N M) : ∀ x ∈ e.children, x.Everywhere N M := by
  cases h
  assumption

theorem Expr.Everywhere.query (h : e.Everywhere N M) :
    ∀ s, e.query? = some s → s.Everywhere N M := by
  cases h
  assumption

theorem Select.Everywhere.here (h : s.Everywhere N M) : M s := by
  cases h
  assumption

theorem Select.Everywhere.clauses (h : s.Everywhere N M) :
    ∀ e ∈ s.clauseExprs, e.Everywhere N M := by
  cases h
  assumption

section Imp

variable (hN : ∀ e, N e → N' e) (hM : ∀ s, M s → M' s)
include hN hM

set_option linter.unusedSectionVars false

mutual

/-- Weaker properties hold everywhere too. -/
theorem Expr.Everywhere.imp {e : Expr} : e.Everywhere N M → e.Everywhere N' M'
  | .intro here children query =>
    .intro (hN _ here) (fun x hx => (children x hx).imp) fun s hs => (query s hs).imp

theorem Select.Everywhere.imp {s : Select} : s.Everywhere N M → s.Everywhere N' M'
  | .intro here clauses => .intro (hM _ here) fun e he => (clauses e he).imp

end

theorem Statement.Everywhere.imp {s : Statement} (h : s.Everywhere N M) : s.Everywhere N' M' := by
  cases s with
  | select s => exact Select.Everywhere.imp hN hM h
  | compound c =>
    exact ⟨fun s hs => (h.members s hs).imp hN hM, fun k hk => (h.orderBy k hk).imp hN hM⟩
  | insert i complete => exact ⟨fun row hrow e he => (h.rows row hrow e he).imp hN hM⟩
  | update u complete =>
    exact ⟨fun a ha => (h.assignments a ha).imp hN hM, fun e he => (h.filter e he).imp hN hM⟩
  | delete x complete => exact ⟨fun e he => (h.condition e he).imp hN hM⟩

end Imp

end Everywhere

/-! ### Everything that is built -/

section Built

variable {tables : Set Table} {e : Expr}

theorem Expr.IsEncoded.everywhere (h : e.IsEncoded) :
    e.Everywhere (IsHeld tables) (Select.Built tables) := by
  obtain ⟨type, v, w, hw, rfl⟩ := h
  refine .intro (.inr ⟨type, v, w, hw, rfl⟩) (List.forall_mem_nil _) ?_
  rintro s ⟨⟩

/-- Every node of a built expression is built or encoded, and every select in it is built. -/
theorem Expr.Built.everywhere (h : e.Built tables) :
    e.Everywhere (IsHeld tables) (Select.Built tables) := by
  refine Expr.induction
    (P := fun e => e.Built tables → e.Everywhere (IsHeld tables) (Select.Built tables))
    (Q := fun s => s.Built tables → s.Everywhere (IsHeld tables) (Select.Built tables))
    (fun e children query h => ?_) (fun s clauses h => ?_) e h
  · refine .intro (.inl h) (fun x hx => ?_) fun s hs => query s hs (h.query hs)
    obtain hx' | hx' := h.children x hx
    · exact children x hx hx'
    · exact hx'.everywhere
  · exact .intro h fun e he => clauses e he (h.clauses e he)

theorem Expr.IsHeld.everywhere (h : e.IsHeld tables) :
    e.Everywhere (IsHeld tables) (Select.Built tables) := by
  obtain h | h := h
  · exact h.everywhere
  · exact h.everywhere

theorem Select.Built.everywhere {s : Select} (h : s.Built tables) :
    s.Everywhere (Expr.IsHeld tables) (Select.Built tables) :=
  .intro h fun e he => (h.clauses e he).everywhere

theorem CompoundSelect.Built.everywhere {c : CompoundSelect} (h : c.Built tables) :
    c.Everywhere (Expr.IsHeld tables) (Select.Built tables) := by
  induction h with
  | ofSelect hs h =>
    obtain rfl := ofSelect_eq_ok h
    exact ⟨List.forall_mem_singleton.2 hs.everywhere, List.forall_mem_nil _⟩
  | combine hc hmember h ih =>
    obtain rfl := combine_eq_ok h
    refine ⟨?_, ih.orderBy⟩
    have hmembers :=
      List.forall_mem_append.2 ⟨ih.members, List.forall_mem_singleton.2 hmember.everywhere⟩
    simpa [members] using hmembers
  | sort hc hk h ih =>
    obtain ⟨-, rfl⟩ := sort_eq_ok h
    exact ⟨ih.members,
      List.forall_mem_append.2 ⟨ih.orderBy, List.forall_mem_singleton.2 hk.everywhere⟩⟩
  | limit n hc ih => exact ⟨ih.members, ih.orderBy⟩
  | offset n hc ih => exact ⟨ih.members, ih.orderBy⟩

/-- What a column accepts is held. -/
theorem Column.everywhere_of_accept {c : Column} {clause : AssignmentClause}
    {sources : List TableRef} {operand : Operand} (h : c.accept clause sources operand = .ok e)
    (hoperand : ∀ x, operand.expr? = some x → x.Built tables) :
    e.Everywhere (Expr.IsHeld tables) (Select.Built tables) :=
  (Expr.isHeld_of_resolve (accept_eq_ok h).2.1 hoperand).everywhere

theorem Insert.Built.everywhere {i : Insert} (h : i.Built tables) :
    i.Everywhere (Expr.IsHeld tables) (Select.Built tables) := by
  induction h with
  | ofTable ht => exact ⟨List.forall_mem_nil _⟩
  | addRow hi hcolumns hoperands h ih =>
    obtain ⟨values, hvalues, haligned⟩ := addRow_eq_ok h
    have hvalue : ∀ p ∈ values, p.2.Everywhere (Expr.IsHeld tables) (Select.Built tables) :=
      fun p hp => by
        obtain ⟨-, operand, hmem, haccept⟩ := Row.encode_eq_ok hvalues p hp
        exact Column.everywhere_of_accept haccept (hoperands _ hmem)
    obtain ⟨-, rfl⟩ | ⟨-, row, hrow, rfl⟩ := haligned
    · exact ⟨List.forall_mem_append.2
        ⟨ih.rows, List.forall_mem_singleton.2 (List.forall_mem_map.2 hvalue)⟩⟩
    · refine ⟨List.forall_mem_append.2 ⟨ih.rows, List.forall_mem_singleton.2 fun e he => ?_⟩⟩
      obtain ⟨p, hp, rfl⟩ := mem_of_align hrow e he
      exact hvalue p hp
  | returningColumns hi hcolumns h ih =>
    obtain ⟨-, rfl⟩ := returningColumns_eq_ok h
    exact ⟨ih.rows⟩

/-- The condition of a built update is built. -/
theorem Update.Built.filter {u : Update} (h : u.Built tables) :
    ∀ e ∈ u.filter?, e.Built tables := by
  induction h with
  | ofTable ht => exact nofun
  | set hu hc hoperand h ih =>
    obtain ⟨-, e, -, rfl⟩ := set_eq_ok h
    exact ih
  | filterBy hu he h ih =>
    obtain ⟨-, -, filter, hattach, rfl⟩ := filterBy_eq_ok h
    rintro _ ⟨⟩
    exact .attach hattach ih he
  | returningColumns hu hcolumns h ih =>
    obtain ⟨-, rfl⟩ := returningColumns_eq_ok h
    exact ih

theorem Update.Built.everywhere {u : Update} (h : u.Built tables) :
    u.Everywhere (Expr.IsHeld tables) (Select.Built tables) := by
  refine ⟨?_, fun e he => (h.filter e he).everywhere⟩
  induction h with
  | ofTable ht => exact List.forall_mem_nil _
  | set hu hc hoperand h ih =>
    obtain ⟨-, e, haccept, rfl⟩ := set_eq_ok h
    intro a ha
    obtain ha | ⟨hvalue, -⟩ := mem_put ha
    · exact ih a ha
    · exact hvalue ▸ Column.everywhere_of_accept haccept hoperand
  | filterBy hu he h ih =>
    obtain ⟨-, -, filter, -, rfl⟩ := filterBy_eq_ok h
    exact ih
  | returningColumns hu hcolumns h ih =>
    obtain ⟨-, rfl⟩ := returningColumns_eq_ok h
    exact ih

/-- The condition of a built delete is built. -/
theorem Delete.Built.condition {x : Delete} (h : x.Built tables) :
    ∀ e ∈ x.condition?, e.Built tables := by
  induction h with
  | ofTable ht => exact nofun
  | filterBy hx he h ih =>
    obtain ⟨-, -, condition, hattach, rfl⟩ := filterBy_eq_ok (step?_filterBy_eq_ok h)
    rintro _ ⟨⟩
    exact .attach hattach ih he
  | allRows hx h ih =>
    obtain rfl := step?_allRows_eq_ok h
    exact nofun
  | returningColumns hx hcolumns h ih =>
    obtain ⟨-, rfl⟩ := step?_returningColumns_eq_ok h
    exact ih

theorem Statement.Built.everywhere {s : Statement} (h : s.Built tables) :
    s.Everywhere (Expr.IsHeld tables) (Select.Built tables) := by
  cases h with
  | select hs => exact hs.everywhere
  | compound hc => exact hc.everywhere
  | insert complete hi => exact hi.everywhere
  | update complete hu => exact hu.everywhere
  | delete complete hx => exact ⟨fun e he => (hx.condition e he).everywhere⟩

end Built

end TypedSql
