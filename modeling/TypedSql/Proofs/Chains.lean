import TypedSql.Proofs.Classes
import TypedSql.Proofs.Literals
import TypedSql.Proofs.Runs

/-!
# Chains of conditions

Joining a condition to a chain of the same kind makes the chain longer and nests nothing, so what is
joined one after another is one chain. In everything that is built no chain has a part that is a
chain of its kind (`Expr.IsFlat`). `JoinsAlike` is the algebra of the functions that make chains:
joining two conditions is associative, and to fold it over conditions is to chain them all.

Four clauses have conditions attached to them: those on the rows of a select, an update and a delete
and that on the groups of a select. `ConditionSlot` is what they have in common, and
`AttachesAlike` what follows from it: a condition is refused for what it is only and never for what
is there already, and conditions that are attached one by one are attached as one chain.
-/

namespace TypedSql

/-! ### Chains -/

namespace Expr

/-- No part of a chain is a chain of the same kind. -/
def IsFlat : Expr → Prop
  | .junction kind parts => ∀ part ∈ parts, ∀ parts', part ≠ .junction kind parts'
  | _ => True

section Chain

variable {kind : Connective} {parts : List Expr}

@[simp] theorem partsFor_junction : (Expr.junction kind parts).partsFor kind = parts :=
  if_pos rfl

/-- A chain has other parts than itself. -/
theorem ne_singleton_junction : parts ≠ [.junction kind parts] := by
  intro h
  have hsize := congrArg sizeOf h
  simp only [List.cons.sizeOf_spec, List.nil.sizeOf_spec, junction.sizeOf_spec] at hsize
  omega

/-- What adds itself alone to a chain is no chain of that kind. -/
theorem ne_junction_of_partsFor {e : Expr} (h : e.partsFor kind = [e]) (parts : List Expr) :
    e ≠ .junction kind parts := by
  rintro rfl
  rw [partsFor_junction] at h
  exact ne_singleton_junction h

variable {tables : Set Table} {e f : Expr}

theorem Formed.isFlat (h : e.Formed tables) : e.IsFlat := by
  cases h with
  | junction hparts => exact fun part hpart => ne_junction_of_partsFor (hparts part hpart).2.2
  | _ => trivial

theorem IsHeld.isFlat (h : e.IsHeld tables) : e.IsFlat := by
  obtain h | ⟨_, _, _, -, rfl⟩ := h
  · exact h.formed.isFlat
  · trivial

theorem chainParts_eq_ok_iff {es : List Expr} :
    chainParts kind es = .ok parts ↔
      (∀ e ∈ es, e.class? = some .boolean) ∧ parts = es.flatMap (partsFor kind) := by
  refine ⟨chainParts_eq_ok, ?_⟩
  rintro ⟨h, rfl⟩
  induction es with
  | nil => rfl
  | cons e es ih =>
    obtain ⟨he, hes⟩ := List.forall_mem_cons.1 h
    have hclass : e.expectClass ValueClass.predicate (.junction kind) = .ok () :=
      expectClass_eq_ok_iff.2 ⟨_, List.mem_singleton_self _, he⟩
    rw [chainParts, hclass, ih hes]
    rfl

/-- Conditions are chained exactly if each of them is one. -/
theorem chain_eq_ok_iff {es : List Expr} :
    chain kind es = .ok f ↔
      (∀ e ∈ es, e.class? = some .boolean) ∧ f = .junction kind (es.flatMap (partsFor kind)) := by
  refine ⟨chain_eq_ok, ?_⟩
  rintro ⟨h, rfl⟩
  rw [chain, chainParts_eq_ok_iff.2 ⟨h, rfl⟩]
  rfl

theorem chainParts_append (es fs : List Expr) :
    chainParts kind (es ++ fs) = (do
      let parts ← chainParts kind es
      let rest ← chainParts kind fs
      return parts ++ rest) := by
  have hnil : chainParts kind [] = pure [] := rfl
  induction es with
  | nil => simp only [List.nil_append, hnil, pure_bind, bind_pure]
  | cons e es ih =>
    simp only [List.cons_append, chainParts, ih, bind_assoc, pure_bind, List.append_assoc]

/-- A chain is a condition already, so that only the condition is checked that is joined to it. -/
theorem chain_junction_pair (parts : List Expr) (e : Expr) :
    chain kind [.junction kind parts, e] = (do
      let rest ← chainParts kind [e]
      return .junction kind (parts ++ rest)) := by
  have hclass : (Expr.junction kind parts).expectClass ValueClass.predicate (.junction kind) =
      pure () :=
    expectClass_eq_ok_iff.2 ⟨_, List.mem_singleton_self _, rfl⟩
  rw [chain, chainParts, hclass]
  simp only [bind_assoc, pure_bind, partsFor_junction]

/-- A condition that is joined to a chain is chained after the others. -/
theorem chain_append_singleton (es : List Expr) (e : Expr) :
    (chain kind es >>= fun f => chain kind [f, e]) = chain kind (es ++ [e]) := by
  rw [chain, bind_assoc, chain, chainParts_append, bind_assoc]
  refine bind_congr fun parts => ?_
  rw [pure_bind, chain_junction_pair, bind_assoc]
  simp only [pure_bind]

/-- Conditions that are joined to a chain one after another are chained after the others, and the
first of them all that is no condition is refused. -/
theorem foldlM_chain_append (es fs : List Expr) :
    (chain kind es >>= fun f => fs.foldlM (fun f e => chain kind [f, e]) f) =
      chain kind (es ++ fs) := by
  induction fs generalizing es with
  | nil => simp
  | cons e fs ih =>
    simp only [List.foldlM_cons]
    rw [← bind_assoc, chain_append_singleton, ih, List.append_assoc, List.singleton_append]

/-- To join conditions one after another is to chain them, also in what is refused. -/
theorem foldlM_chain {es : List Expr} (hes : es ≠ []) (e : Expr) :
    es.foldlM (fun f e => chain kind [f, e]) e = chain kind (e :: es) := by
  obtain ⟨second, es, rfl⟩ := List.exists_cons_of_ne_nil hes
  rw [List.foldlM_cons]
  exact foldlM_chain_append [e, second] es

/-- A condition and then two others that are joined are three conditions in a chain. -/
theorem chain_chain_right (a b c : Expr) :
    (chain kind [b, c] >>= fun bc => chain kind [a, bc]) = .ok f ↔
      chain kind [a, b, c] = .ok f := by
  simp only [bind_eq_ok, chain_eq_ok_iff]
  constructor
  · rintro ⟨_, ⟨hbc, rfl⟩, habc, rfl⟩
    exact ⟨List.forall_mem_cons.2 ⟨habc a (List.mem_cons_self ..), hbc⟩, by simp⟩
  · rintro ⟨habc, rfl⟩
    obtain ⟨ha, hbc⟩ := List.forall_mem_cons.1 habc
    exact ⟨_, ⟨hbc, rfl⟩, List.forall_mem_cons.2 ⟨ha, List.forall_mem_singleton.2 rfl⟩, by simp⟩

/-- Joining is associative where it succeeds; which condition is refused first may differ. -/
theorem chain_assoc (a b c : Expr) :
    (chain kind [a, b] >>= fun ab => chain kind [ab, c]) = .ok f ↔
      (chain kind [b, c] >>= fun bc => chain kind [a, bc]) = .ok f := by
  rw [chain_append_singleton, chain_chain_right]
  rfl

/-- A chain after a condition that may be there is a chain with its parts before. -/
theorem attached_junction (condition? : Option Expr) (parts : List Expr) :
    attached condition? (.junction .and parts) = .junction .and (conjuncts condition? ++ parts) := by
  cases condition? <;> simp [attached, conjuncts]

theorem foldl_attached_some {es : List Expr} (hes : es ≠ []) (e : Expr) :
    es.foldl (fun f e => attached (some f) e) e =
      .junction .and (e.partsFor .and ++ es.flatMap (partsFor .and)) := by
  induction es generalizing e with
  | nil => exact absurd rfl hes
  | cons second es ih =>
    cases es with
    | nil => simp [attached]
    | cons third es =>
      rw [List.foldl_cons, ih (List.cons_ne_nil third es)]
      simp [attached]

/-- Conditions that are attached one after another, to one that may be there already, are attached
as one chain. -/
theorem foldl_attached (condition? : Option Expr) (e : Expr) {es : List Expr} (hes : es ≠ []) :
    es.foldl (fun f e => attached (some f) e) (attached condition? e) =
      attached condition? (.junction .and ((e :: es).flatMap (partsFor .and))) := by
  have hparts : (attached condition? e).partsFor .and = conjuncts condition? ++ e.partsFor .and := by
    simpa [conjuncts] using conjuncts_attached condition? e
  rw [foldl_attached_some hes, hparts, attached_junction, List.flatMap_cons, List.append_assoc]

end Chain

end Expr

/-- A function that joins two conditions and one that chains a list of them go together: joining is
associative, and to join conditions one after another is to chain them, which only a condition that
is none can prevent. -/
structure JoinsAlike (both : Expr → Expr → Except BuildError Expr)
    (every : List Expr → Except BuildError Expr) : Prop where
  assoc (a b c f : Expr) :
    (both a b >>= fun ab => both ab c) = .ok f ↔ (both b c >>= fun bc => both a bc) = .ok f
  foldlM_eq (e : Expr) (es : List Expr) (hes : es ≠ []) : es.foldlM both e = every (e :: es)
  exists_iff (es : List Expr) : (∃ f, every es = .ok f) ↔ ∀ e ∈ es, e.class? = some .boolean

theorem joinsAlike_chain (kind : Connective) :
    JoinsAlike (fun e f => Expr.chain kind [e, f]) (Expr.chain kind) where
  assoc a b c _ := Expr.chain_assoc a b c
  foldlM_eq e es hes := Expr.foldlM_chain hes e
  exists_iff es := by simp [Expr.chain_eq_ok_iff]

/-! ### Attaching conditions -/

/-- A place in some statements that conditions are attached to. A condition is checked by itself,
whatever condition is there already, and nothing else of the statement changes. -/
structure ConditionSlot (σ : Type) where
  condition? : σ → Option Expr
  put : σ → Expr → σ
  /-- The statement has the place, and the tables whose columns a condition uses. -/
  Binds : σ → Expr → Prop
  /-- A condition is attached to a statement, and the other statement is the result. -/
  Attaches : σ → Expr → σ → Prop
  attaches_iff {s s' : σ} {e : Expr} (hs : ∀ f, condition? s = some f → f.class? = some .boolean) :
    Attaches s e s' ↔
      e.class? = some .boolean ∧ Binds s e ∧ s' = put s (Expr.attached (condition? s) e)
  condition?_put (s : σ) (e : Expr) : condition? (put s e) = some e
  put_put (s : σ) (e f : Expr) : put (put s e) f = put s f
  binds_put {s : σ} {e : Expr} (h : Binds s e) (f g : Expr) : Binds (put s f) g ↔ Binds s g
  binds_chain (s : σ) (e : Expr) (es : List Expr) :
    Binds s (.junction .and ((e :: es).flatMap (Expr.partsFor .and))) ↔ ∀ x ∈ e :: es, Binds s x

/-- Conditions are attached to a statement one after another as they are all together. A condition is
refused only for what it is itself, so that conditions that are each accepted are accepted in turn;
and two or more in turn are one chain. -/
structure AttachesAlike {σ : Type} (Binds : Expr → Prop) (Attaches : σ → Expr → σ → Prop)
    (s : σ) : Prop where
  exists_iff (e : Expr) : (∃ s', Attaches s e s') ↔ e.class? = some .boolean ∧ Binds e
  exists_run (es : List Expr) (hes : ∀ e ∈ es, ∃ s', Attaches s e s') : ∃ s', Run Attaches s es s'
  run_iff (first second : Expr) (es : List Expr) (s' : σ) :
    Run Attaches s (first :: second :: es) s' ↔
      ∃ f, Expr.all (first :: second :: es) = .ok f ∧ Attaches s f s'

namespace ConditionSlot

variable {σ : Type} (slot : ConditionSlot σ) {s s' : σ}

/-- The condition that is there is one. -/
def IsSound (s : σ) : Prop :=
  ∀ f, slot.condition? s = some f → f.class? = some .boolean

variable {slot}

theorem isSound_put {e : Expr} (h : e.class? = some .boolean) : slot.IsSound (slot.put s e) := by
  intro f hf
  rw [slot.condition?_put] at hf
  cases hf
  exact h

theorem class?_attached {condition? : Option Expr} {e : Expr} (h : e.class? = some .boolean) :
    (Expr.attached condition? e).class? = some .boolean := by
  cases condition? with
  | none => exact h
  | some condition => rfl

/-- Where conditions are attached in turn, each one is checked by itself, and they follow one another
in place of the condition that is there. -/
theorem run_iff (hs : slot.IsSound s) (e : Expr) (es : List Expr) :
    Run slot.Attaches s (e :: es) s' ↔
      (∀ x ∈ e :: es, x.class? = some .boolean ∧ slot.Binds s x) ∧
        s' = slot.put s
          (es.foldl (fun f e => Expr.attached (some f) e)
            (Expr.attached (slot.condition? s) e)) := by
  induction es generalizing s e with
  | nil => simp [Run.cons_iff, Run.nil_iff, slot.attaches_iff hs, eq_comm, and_assoc]
  | cons second es ih =>
    rw [Run.cons_iff]
    constructor
    · rintro ⟨s₁, hfirst, hrest⟩
      obtain ⟨hclass, hbinds, rfl⟩ := (slot.attaches_iff hs).1 hfirst
      obtain ⟨hchecks, rfl⟩ := (ih (isSound_put (class?_attached hclass)) second).1 hrest
      refine ⟨List.forall_mem_cons.2 ⟨⟨hclass, hbinds⟩, fun x hx => ?_⟩, ?_⟩
      · exact ⟨(hchecks x hx).1, (slot.binds_put hbinds _ _).1 (hchecks x hx).2⟩
      · rw [slot.put_put, slot.condition?_put]
        rfl
    · rintro ⟨hchecks, rfl⟩
      obtain ⟨⟨hclass, hbinds⟩, hrest⟩ := List.forall_mem_cons.1 hchecks
      refine ⟨_, (slot.attaches_iff hs).2 ⟨hclass, hbinds, rfl⟩, ?_⟩
      refine (ih (isSound_put (class?_attached hclass)) second).2 ⟨fun x hx => ?_, ?_⟩
      · exact ⟨(hrest x hx).1, (slot.binds_put hbinds _ _).2 (hrest x hx).2⟩
      · rw [slot.put_put, slot.condition?_put]
        rfl

theorem attachesAlike (hs : slot.IsSound s) : AttachesAlike (slot.Binds s) slot.Attaches s where
  exists_iff e := by simp [slot.attaches_iff hs]
  exists_run es hes := by
    cases es with
    | nil => exact ⟨s, .nil s⟩
    | cons e es =>
      refine ⟨_, (run_iff hs e es).2 ⟨fun x hx => ?_, rfl⟩⟩
      obtain ⟨s', h⟩ := hes x hx
      obtain ⟨hclass, hbinds, -⟩ := (slot.attaches_iff hs).1 h
      exact ⟨hclass, hbinds⟩
  run_iff first second es s' := by
    simp only [run_iff hs, Expr.all, Expr.chain_eq_ok_iff, slot.attaches_iff hs,
      Expr.foldl_attached _ _ (List.cons_ne_nil second es)]
    constructor
    · rintro ⟨hchecks, rfl⟩
      exact ⟨_, ⟨fun x hx => (hchecks x hx).1, rfl⟩, rfl,
        (slot.binds_chain s first (second :: es)).2 fun x hx => (hchecks x hx).2, rfl⟩
    · rintro ⟨_, ⟨hclass, rfl⟩, -, hbinds, rfl⟩
      have hbinds' := (slot.binds_chain s first (second :: es)).1 hbinds
      exact ⟨fun x hx => ⟨hclass x hx, hbinds' x hx⟩, rfl⟩

end ConditionSlot

/-! ### The places for conditions -/

section Slots

/-- What is checked where a condition is attached, and what comes of it. -/
theorem attached_eq_ok_iff {σ : Type} {condition? : Option Expr} {e : Expr}
    (hs : ∀ f, condition? = some f → f.class? = some .boolean) (clause : ConditionClause)
    (sources : List TableRef) (put : Expr → σ) (s' : σ) :
    (do
      e.expectCondition clause
      e.expectBound sources
      let condition ← Expr.attach condition? e
      return put condition) = .ok s' ↔
      e.class? = some .boolean ∧ (∀ c ∈ e.columns, c.table ∈ sources) ∧
        s' = put (Expr.attached condition? e) := by
  have hattach : e.class? = some .boolean →
      Expr.attach condition? e = .ok (Expr.attached condition? e) := by
    intro he
    cases condition? with
    | none => rfl
    | some condition =>
      refine Expr.chain_eq_ok_iff.2 ⟨?_, rfl⟩
      exact List.forall_mem_cons.2 ⟨hs condition rfl, List.forall_mem_singleton.2 he⟩
  simp only [bind_eq_ok, pure_eq_ok]
  constructor
  · rintro ⟨_, hcondition, _, hbound, condition, hattached, rfl⟩
    have hclass := Expr.expectCondition_eq_ok_iff.1 hcondition
    rw [hattach hclass] at hattached
    cases hattached
    exact ⟨hclass, (Expr.expectBound_eq_ok_iff e sources).1 hbound, rfl⟩
  · rintro ⟨hclass, hbound, rfl⟩
    exact ⟨(), Expr.expectCondition_eq_ok_iff.2 hclass, (),
      (Expr.expectBound_eq_ok_iff e sources).2 hbound, _, hattach hclass, rfl⟩

/-- A chain uses the columns of its conditions. -/
theorem forall_columns_chain {P : Column → Prop} (kind : Connective) (es : List Expr) :
    (∀ c ∈ (Expr.junction kind (es.flatMap (Expr.partsFor kind))).columns, P c) ↔
      ∀ e ∈ es, ∀ c ∈ e.columns, P c := by
  rw [Expr.columns_chain, List.forall_mem_flatMap]

/-- The condition on the rows of a select. -/
def Select.filterSlot : ConditionSlot Select where
  condition? := Select.filter?
  put s e := { s with filter? := some e }
  Binds := Select.Binds
  Attaches s e s' := s.step (.filterBy e) = .ok s'
  attaches_iff hs := attached_eq_ok_iff hs .filter ..
  condition?_put _ _ := rfl
  put_put _ _ _ := rfl
  binds_put _ _ _ := Iff.rfl
  binds_chain _ _ _ := forall_columns_chain ..

/-- The condition on the groups of a select. -/
def Select.havingSlot : ConditionSlot Select where
  condition? := Select.having?
  put s e := { s with having? := some e }
  Binds := Select.Binds
  Attaches s e s' := s.step (.havingBy e) = .ok s'
  attaches_iff hs := attached_eq_ok_iff hs .having ..
  condition?_put _ _ := rfl
  put_put _ _ _ := rfl
  binds_put _ _ _ := Iff.rfl
  binds_chain _ _ _ := forall_columns_chain ..

/-- The condition on the rows of an update. -/
def Update.filterSlot : ConditionSlot Update where
  condition? := Update.filter?
  put u e := { u with filter? := some e }
  Binds u e := ∀ c ∈ e.columns, c.table = u.table.ref
  Attaches u e u' := u.step (.filterBy e) = .ok u'
  attaches_iff {u u' e} hu := by
    have hchecked := attached_eq_ok_iff hu (e := e) .filter [u.table.ref]
      (fun f => { u with filter? := some f }) u'
    simp only [List.mem_singleton] at hchecked
    exact hchecked
  condition?_put _ _ := rfl
  put_put _ _ _ := rfl
  binds_put _ _ _ := Iff.rfl
  binds_chain _ _ _ := forall_columns_chain ..

/-- A delete takes a condition unless it removes all rows. -/
theorem Delete.step?_filterBy_iff {x x' : Delete} {e : Expr} :
    x.step? (.filterBy e) = some (.ok x') ↔
      x.extent ≠ .allRows ∧ x.filterBy x.condition? e = .ok x' := by
  obtain ⟨table, extent, returning⟩ := x
  cases extent <;> simp [Delete.step?, Delete.condition?]

/-- The condition on the rows of a delete. -/
def Delete.filterSlot : ConditionSlot Delete where
  condition? := Delete.condition?
  put x e := { x with extent := .matching e }
  Binds x e := x.extent ≠ .allRows ∧ ∀ c ∈ e.columns, c.table = x.table.ref
  Attaches x e x' := x.step? (.filterBy e) = some (.ok x')
  attaches_iff {x x' e} hx := by
    have hchecked := attached_eq_ok_iff hx (e := e) .filter [x.table.ref]
      (fun f => { x with extent := .matching f }) x'
    simp only [List.mem_singleton] at hchecked
    rw [step?_filterBy_iff, Delete.filterBy, hchecked, and_left_comm, and_assoc]
  condition?_put _ _ := rfl
  put_put _ _ _ := rfl
  binds_put h _ _ := by simp [h.1]
  binds_chain x e es := by
    rw [forall_columns_chain]
    exact ⟨fun h y hy => ⟨h.1, h.2 y hy⟩,
      fun h => ⟨(h e (List.mem_cons_self ..)).1, fun y hy => (h y hy).2⟩⟩

end Slots

/-! ### What is built -/

section Built

variable {tables : Set Table}

theorem Expr.Built.isFlat {e : Expr} (h : e.Built tables) :
    e.Everywhere Expr.IsFlat fun _ => True :=
  h.everywhere.imp (fun _ => Expr.IsHeld.isFlat) fun _ _ => trivial

theorem Statement.Built.isFlat {s : Statement} (h : s.Built tables) :
    s.Everywhere Expr.IsFlat fun _ => True :=
  h.everywhere.imp (fun _ => Expr.IsHeld.isFlat) fun _ _ => trivial

/--
**Chains are canonical.** In everything that is built, at any depth, no chain has a part that is a
chain of its kind. Joining conditions by `AND` or by `OR` is associative, and to join two or more of
them one after another is to chain them all, which only fails for what is no condition. So for every
built statement that has conditions attached to it, a condition is accepted exactly if it is one and
uses columns of the statement only, whatever condition is there already; conditions that are each
accepted are accepted in turn; and two or more that are attached in turn make the statement that
their chain makes when it is attached at once.
-/
theorem attachesAlike_of_built (tables : Set Table) :
    (∀ e : Expr, e.Built tables → e.Everywhere Expr.IsFlat fun _ => True) ∧
      (∀ s : Statement, s.Built tables → s.Everywhere Expr.IsFlat fun _ => True) ∧
      JoinsAlike Expr.and Expr.all ∧ JoinsAlike Expr.or Expr.any ∧
      (∀ s : Select, s.Built tables →
        AttachesAlike s.Binds (fun s e s' => s.step (.filterBy e) = .ok s') s ∧
          AttachesAlike s.Binds (fun s e s' => s.step (.havingBy e) = .ok s') s) ∧
      (∀ u : Update, u.Built tables →
        AttachesAlike (fun e => ∀ c ∈ e.columns, c.table = u.table.ref)
          (fun u e u' => u.step (.filterBy e) = .ok u') u) ∧
      ∀ x : Delete, x.Built tables →
        AttachesAlike (fun e => x.extent ≠ .allRows ∧ ∀ c ∈ e.columns, c.table = x.table.ref)
          (fun x e x' => x.step? (.filterBy e) = some (.ok x')) x := by
  refine ⟨fun e he => he.isFlat, fun s hs => hs.isFlat, joinsAlike_chain .and, joinsAlike_chain .or,
    fun s hs => ⟨?_, ?_⟩, fun u hu => ?_, fun x hx => ?_⟩
  · exact Select.filterSlot.attachesAlike hs.wellTyped.filter
  · exact Select.havingSlot.attachesAlike hs.wellTyped.having
  · exact Update.filterSlot.attachesAlike hu.wellTyped.filter
  · exact Delete.filterSlot.attachesAlike hx.wellTyped

/-- Two conditions on the price of goods. -/
theorem attachesAlike_of_built_goods :
    (Select.ofTable goods).Built {goods} ∧
      ∃ s', Run (fun s e s' => s.step (.filterBy e) = .ok s') (Select.ofTable goods)
          [priceAgainst .gt 2, priceAgainst .lt 9] s' ∧
        ∃ f, Expr.all [priceAgainst .gt 2, priceAgainst .lt 9] = .ok f ∧
          (Select.ofTable goods).step (.filterBy f) = .ok s' := by
  have hbuilt : (Select.ofTable goods).Built {goods} := .ofTable rfl
  have hbinds : ∀ op n, (Select.ofTable goods).Binds (priceAgainst op n) := by
    intro op n c hc
    obtain rfl := List.mem_singleton.1 hc
    exact List.mem_singleton_self _
  have h := ((attachesAlike_of_built {goods}).2.2.2.2.1 _ hbuilt).1
  have haccepted := fun op n => (h.exists_iff (priceAgainst op n)).2 ⟨rfl, hbinds op n⟩
  obtain ⟨s', hrun⟩ := h.exists_run [priceAgainst .gt 2, priceAgainst .lt 9]
    (List.forall_mem_cons.2 ⟨haccepted .gt 2, List.forall_mem_singleton.2 (haccepted .lt 9)⟩)
  exact ⟨hbuilt, s', hrun, (h.run_iff _ _ _ s').1 hrun⟩

/-- A condition alone is attached as it is, but as a chain of one condition it is a chain. -/
example : Expr.attach none (priceAgainst .lt 9) = .ok (priceAgainst .lt 9) ∧
    Expr.all [priceAgainst .lt 9] = .ok (.junction .and [priceAgainst .lt 9]) :=
  ⟨rfl, rfl⟩

end Built

end TypedSql
