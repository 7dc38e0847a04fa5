import TypedSql.Proofs.Building
import TypedSql.Proofs.Skeleton

/-!
# Builders up to values

The functions that build statements look at a raw value only to tell whether it is NULL and whether
to refuse it. `Expr.mask` forgets everything else about the values of literals. What a builder
returns is then a function of what it is given: `Expr.resolved`, `Expr.operated` and
`Select.stepped` are these functions, and they neither refuse nor encode anything.
-/

namespace TypedSql

/-! ### Values up to being NULL -/

/-- A value of which only stays whether it is NULL. -/
def Value.mask : Value → Value
  | .null => .null
  | _ => .bool true

theorem Value.mask_eq_mask {v w : Value} (h : v.isNull = w.isNull) : v.mask = w.mask := by
  cases v <;> cases w <;> first | rfl | cases h

/-- A codec lets NULL pass and makes NULL of nothing else. -/
theorem ColumnType.mask_encode {type : ColumnType} {v w : Value} (h : type.encode v = .ok w) :
    w.mask = v.mask := by
  refine Value.mask_eq_mask ?_
  have hnull := ColumnDecl.encode_eq_null_iff h
  rwa [← Value.isNull_iff, ← Value.isNull_iff, ← Bool.eq_iff_iff] at hnull

/-- An expression of which every literal keeps only whether it is NULL. -/
def Expr.mask (e : Expr) : Expr :=
  e.mapValues Value.mask

/-- A select of which every literal keeps only whether it is NULL. -/
def Select.mask (s : Select) : Select :=
  s.mapValues Value.mask

/-- An operand of which every value keeps only whether it is NULL. -/
def Operand.mask : Operand → Operand
  | .expr e => .expr e.mask
  | .value v => .value v.mask

theorem Expr.skeleton_mask (e : Expr) : e.mask.skeleton = e.skeleton :=
  e.mapValues_mapValues _ _

theorem Select.skeleton_mask (s : Select) : s.mask.skeleton = s.skeleton :=
  s.mapValues_mapValues _ _

/-- The declared type behind an expression does not depend on values. -/
theorem Expr.type?_mask (e : Expr) : e.mask.type? = e.type? := by
  refine Expr.induction (P := fun e => e.mask.type? = e.type?) (Q := fun _ => True)
    (fun e parts _ => ?_) (fun _ _ => trivial) e
  cases e with
  | apply g e => cases g <;> first | rfl | exact parts e (by simp [children])
  | orElse e fallback => exact parts e (by simp [children])
  | extremum g first second rest => exact parts first (by simp [children])
  | _ => rfl

theorem Expr.isNullLiteral_mask (e : Expr) : e.mask.isNullLiteral = e.isNullLiteral := by
  cases e with
  | literal v type? => cases v <;> rfl
  | _ => rfl

theorem Operand.isNull_mask (operand : Operand) : operand.mask.isNull = operand.isNull := by
  cases operand with
  | expr e => exact e.isNullLiteral_mask
  | value v => cases v <;> rfl

theorem Expr.map_mapValues_partsFor (f : Value → Value) (kind : Connective) (e : Expr) :
    (e.partsFor kind).map (mapValues f) = (e.mapValues f).partsFor kind := by
  cases e with
  | junction k parts =>
    simp only [partsFor, mapValues]
    split
    · exact (mapValuesOfAll_eq parts).symm
    · rfl
  | _ => rfl

/-! ### What builders return up to values -/

namespace Expr

/-- An operand beside an expression, where nothing is refused or encoded. -/
def resolved (anchor : Expr) : Operand → Expr
  | .value v => .literal v anchor.type?
  | .expr (.literal v none) => .literal v anchor.type?
  | .expr e => e

/-- An operator applied to an expression and an operand, where nothing is refused or encoded. -/
def operated (left : Expr) (op : BinaryOp) (operand : Operand) : Expr :=
  if operand.isNull then if op = .compare .eq then left.isNull else left.isNotNull
  else .binary left op (left.resolved operand)

/-- The greatest or the least of an expression and others, where nothing is refused. -/
def picked (f : Extremum) (first : Expr) : List Expr → Expr
  | [] => first
  | second :: rest => .extremum f first second rest

/-- A comparison of an expression with the rows of a subquery, where nothing is refused. -/
def quantifiedBy (subject : Expr) (op : BinaryOp) (quantifier : Quantifier) (query : Select) :
    Expr :=
  match op with
  | .compare comparison => .quantified subject comparison quantifier query
  | _ => subject

/-- A condition after another, where nothing is refused. -/
def attached (condition? : Option Expr) (e : Expr) : Expr :=
  match condition? with
  | some condition => .junction .and ([condition, e].flatMap (partsFor .and))
  | none => e

section Results

variable {anchor e f left subject : Expr} {operand : Operand}

theorem mask_resolved (anchor : Expr) (operand : Operand) :
    (anchor.resolved operand).mask = anchor.mask.resolved operand.mask := by
  cases operand with
  | value v => simp [resolved, Operand.mask, mask, mapValues, ← anchor.type?_mask]
  | expr e =>
    cases e with
    | literal v type? =>
      cases type? with
      | none => simp [resolved, Operand.mask, mask, mapValues, ← anchor.type?_mask]
      | some type => rfl
    | _ => rfl

theorem resolveValue_mask {v : Value} (h : anchor.resolveValue v = .ok e) :
    e.mask = (Expr.literal v anchor.type?).mask := by
  unfold resolveValue at h
  split at h
  · rename_i htype
    rw [← Except.ok.inj h, htype]
  · rename_i type htype
    split at h
    · rename_i w hencode
      rw [← Except.ok.inj h, htype, mask, mask, mapValues, mapValues,
        ColumnType.mask_encode hencode]
    · cases h

theorem resolve_mask (h : anchor.resolve operand = .ok e) :
    e.mask = anchor.mask.resolved operand.mask := by
  rw [← mask_resolved]
  unfold resolve at h
  split at h
  · exact resolveValue_mask h
  · exact resolveValue_mask h
  · rename_i x hx
    rw [← Except.ok.inj h]
    unfold resolved
    split
    · rename_i heq
      cases heq
    · rename_i v heq
      cases heq
      exact absurd rfl (hx v)
    · rename_i heq
      cases heq
      rfl

theorem operate_mask {op : BinaryOp} (h : left.operate op operand = .ok f) :
    f.mask = left.mask.operated op operand.mask := by
  unfold operate at h
  unfold operated
  rw [operand.isNull_mask]
  split at h
  · cases h
  · split at h
    · rename_i hnull
      rw [if_pos hnull]
      split at h
      · rw [← Except.ok.inj h, if_pos rfl]
        rfl
      · rw [← Except.ok.inj h, if_neg (by decide)]
        rfl
      · cases h
    · rename_i hnull
      obtain ⟨_, -, h⟩ := bind_eq_ok.1 h
      obtain ⟨right, hright, h⟩ := bind_eq_ok.1 h
      obtain ⟨_, -, h⟩ := bind_eq_ok.1 h
      obtain ⟨_, -, h⟩ := bind_eq_ok.1 h
      rw [if_neg hnull, ← pure_eq_ok.1 h, ← resolve_mask hright]
      rfl

theorem between_mask {low high : Operand} {negated : Bool}
    (h : subject.between low high negated = .ok f) :
    f.mask = .range subject.mask (subject.mask.resolved low.mask)
      (subject.mask.resolved high.mask) negated := by
  simp only [between] at h
  split at h
  · cases h
  · obtain ⟨_, -, h⟩ := bind_eq_ok.1 h
    obtain ⟨l, hl, h⟩ := bind_eq_ok.1 h
    obtain ⟨r, hr, h⟩ := bind_eq_ok.1 h
    obtain ⟨_, -, h⟩ := bind_eq_ok.1 h
    obtain ⟨_, -, h⟩ := bind_eq_ok.1 h
    rw [← pure_eq_ok.1 h, ← resolve_mask hl, ← resolve_mask hr]
    rfl

theorem counterparts_mask {construct : Construct} {operands : List Operand} {es : List Expr}
    (h : subject.counterparts construct operands = .ok es) :
    es.map mask = (operands.map Operand.mask).map subject.mask.resolved := by
  induction operands generalizing es with
  | nil =>
    cases h
    rfl
  | cons operand operands ih =>
    obtain ⟨e, he, h⟩ := bind_eq_ok.1 h
    obtain ⟨rest, hrest, h⟩ := bind_eq_ok.1 h
    unfold counterpart at he
    split at he
    · cases he
    · obtain ⟨x, hx, he⟩ := bind_eq_ok.1 he
      obtain ⟨_, -, he⟩ := bind_eq_ok.1 he
      rw [← pure_eq_ok.1 h, ← pure_eq_ok.1 he, List.map_cons, List.map_cons, List.map_cons,
        ih hrest, resolve_mask hx]

theorem inList_mask {operands : List Operand} {negated : Bool}
    (h : subject.inList operands negated = .ok f) :
    f.mask = .listMembership subject.mask
      ((operands.map Operand.mask).map subject.mask.resolved) negated := by
  simp only [inList] at h
  split at h
  · cases h
  · obtain ⟨items, hitems, h⟩ := bind_eq_ok.1 h
    rw [← pure_eq_ok.1 h, ← counterparts_mask hitems, mask, mapValues, mapValuesOfAll_eq]
    rfl

theorem coalesce_mask (h : e.coalesce operand = .ok f) :
    f.mask = .orElse e.mask (e.mask.resolved operand.mask) := by
  obtain ⟨fallback, hfallback, h⟩ := bind_eq_ok.1 h
  obtain ⟨_, -, h⟩ := bind_eq_ok.1 h
  rw [← pure_eq_ok.1 h, ← resolve_mask hfallback]
  rfl

theorem pick_mask {g : Extremum} {operands : List Operand} (h : pick g e operands = .ok f) :
    f.mask = picked g e.mask ((operands.map Operand.mask).map e.mask.resolved) := by
  obtain ⟨_, -, h⟩ := bind_eq_ok.1 h
  obtain ⟨others, hothers, h⟩ := bind_eq_ok.1 h
  rw [← counterparts_mask hothers]
  cases others with
  | nil => rw [← pure_eq_ok.1 h]; rfl
  | cons second rest =>
    rw [← pure_eq_ok.1 h, mask, mapValues, mapValuesOfAll_eq]
    rfl

theorem mapValues_junction (f : Value → Value) (kind : Connective) (es : List Expr) :
    (Expr.junction kind (es.flatMap (partsFor kind))).mapValues f =
      .junction kind ((es.map (mapValues f)).flatMap (partsFor kind)) := by
  rw [mapValues, mapValuesOfAll_eq, List.map_flatMap, List.flatMap_map]
  exact congrArg _ (List.flatMap_congr fun e _ => e.map_mapValues_partsFor f kind)

theorem chain_mask {kind : Connective} {es : List Expr} (h : chain kind es = .ok f) :
    f.mask = .junction kind ((es.map mask).flatMap (partsFor kind)) := by
  rw [(chain_eq_ok h).2]
  exact mapValues_junction Value.mask kind es

theorem attach_eq_attached {condition? : Option Expr} (h : attach condition? e = .ok f) :
    f = attached condition? e := by
  cases condition? with
  | none => exact (Except.ok.inj h).symm
  | some condition => exact (chain_eq_ok h).2

theorem mapValues_attached (f : Value → Value) (condition? : Option Expr) (e : Expr) :
    (attached condition? e).mapValues f =
      attached (condition?.map (mapValues f)) (e.mapValues f) := by
  cases condition? with
  | none => rfl
  | some condition => exact mapValues_junction f .and [condition, e]

theorem quantify_mask {op : BinaryOp} {quantifier : Quantifier} {query : Select}
    (h : subject.quantify op quantifier query = .ok f) :
    f.mask = subject.mask.quantifiedBy op quantifier query.mask := by
  unfold quantify at h
  split at h
  · split at h
    · cases h
    · obtain ⟨_, -, h⟩ := bind_eq_ok.1 h
      obtain ⟨_, -, h⟩ := bind_eq_ok.1 h
      rw [← pure_eq_ok.1 h]
      rfl
  · cases h

end Results

end Expr

namespace Select

/-- A step with a function applied to the expressions that it is given. -/
def Step.mapExprs (g : Expr → Expr) : Step → Step
  | .project es => .project (es.map g)
  | .projectAs e name => .projectAs (g e) name
  | .dropDuplicates => .dropDuplicates
  | .correlate t => .correlate t
  | .join kind t condition => .join kind t (g condition)
  | .crossJoin t => .crossJoin t
  | .filterBy e => .filterBy (g e)
  | .group columns => .group columns
  | .havingBy e => .havingBy (g e)
  | .sort k => .sort { k with expr := g k.expr }
  | .limit n => .limit n
  | .offset n => .offset n

/-- A select after a step, where nothing is refused. -/
def stepped (s : Select) : Step → Select
  | .project es => { s with projections := s.projections ++ es.map fun e => ⟨e, none⟩ }
  | .projectAs e name => { s with projections := s.projections ++ [⟨e, some name⟩] }
  | .dropDuplicates => s.dropDuplicates
  | .correlate t => s.correlate t
  | .join kind t condition => { s with joins := s.joins ++ [.on kind t condition] }
  | .crossJoin t => { s with joins := s.joins ++ [.cross t] }
  | .filterBy e => { s with filter? := some (Expr.attached s.filter? e) }
  | .group columns => { s with groupBy := columns }
  | .havingBy e => { s with having? := some (Expr.attached s.having? e) }
  | .sort k => { s with orderBy := s.orderBy ++ [k] }
  | .limit n => s.limit n
  | .offset n => s.offset n

theorem step_eq_stepped {s s' : Select} {st : Step} (h : s.step st = .ok s') :
    s' = s.stepped st := by
  cases st with
  | project es => exact (project_eq_ok h).2
  | projectAs e name => exact (projectAs_eq_ok h).2
  | join kind t condition => exact (join_eq_ok h).2.2.2
  | crossJoin t => exact (crossJoin_eq_ok h).2
  | filterBy e =>
    obtain ⟨-, -, filter, hattach, rfl⟩ := filterBy_eq_ok h
    rw [Expr.attach_eq_attached hattach]
    rfl
  | group columns => exact (group_eq_ok h).2
  | havingBy e =>
    obtain ⟨-, -, having, hattach, rfl⟩ := havingBy_eq_ok h
    rw [Expr.attach_eq_attached hattach]
    rfl
  | sort k => exact (sort_eq_ok h).2
  | _ => exact (Except.ok.inj h).symm

/-- What a step makes of a select up to values depends on what it is given up to values. -/
theorem mask_stepped (s : Select) (st : Step) :
    (s.stepped st).mask = s.mask.stepped (st.mapExprs Expr.mask) := by
  cases st with
  | project es =>
    simp [mask, mapValues_eq, stepped, Step.mapExprs, Projection.mapValues, Expr.mask]
  | projectAs e name =>
    simp [mask, mapValues_eq, stepped, Step.mapExprs, Projection.mapValues, Expr.mask]
  | join kind t condition =>
    simp [mask, mapValues_eq, stepped, Step.mapExprs, Join.mapValues, Expr.mask]
  | crossJoin t => simp [mask, mapValues_eq, stepped, Step.mapExprs, Join.mapValues]
  | filterBy e =>
    simp [mask, mapValues_eq, stepped, Step.mapExprs, Expr.mask, Expr.mapValues_attached]
  | havingBy e =>
    simp [mask, mapValues_eq, stepped, Step.mapExprs, Expr.mask, Expr.mapValues_attached]
  | sort k => simp [mask, mapValues_eq, stepped, Step.mapExprs, SortKey.mapValues, Expr.mask]
  | dropDuplicates => simp [mask, mapValues_eq, stepped, Step.mapExprs, Select.dropDuplicates]
  | correlate t => simp [mask, mapValues_eq, stepped, Step.mapExprs, Select.correlate]
  | group columns => simp [mask, mapValues_eq, stepped, Step.mapExprs]
  | limit n => simp [mask, mapValues_eq, stepped, Step.mapExprs, Select.limit]
  | offset n => simp [mask, mapValues_eq, stepped, Step.mapExprs, Select.offset]

theorem Step.mask_congr {g g' : Expr → Expr} {st : Step}
    (h : ∀ e ∈ st.exprs, (g e).mask = (g' e).mask) :
    (st.mapExprs g).mapExprs Expr.mask = (st.mapExprs g').mapExprs Expr.mask := by
  cases st with
  | project es => simpa [mapExprs, exprs] using h
  | projectAs e name => simpa [mapExprs] using h e (by simp [exprs])
  | join kind t condition => simpa [mapExprs] using h condition (by simp [exprs])
  | filterBy e => simpa [mapExprs] using h e (by simp [exprs])
  | havingBy e => simpa [mapExprs] using h e (by simp [exprs])
  | sort k => simpa [mapExprs] using h k.expr (by simp [exprs])
  | _ => rfl

end Select

end TypedSql
