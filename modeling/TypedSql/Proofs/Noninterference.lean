import TypedSql.Proofs.BindingOrder
import TypedSql.Proofs.Masking

/-!
# Values do not interfere with texts

Two runs of one program may hand different raw values to the functions that build statements, as
long as these are NULL or not in both. `Statement.BuiltAlike` relates what such runs build, and what
is built alike is equal up to the values of its literals. The main statement is
`compile_noninterference`: statements that are built alike, or equal up to the values of their
literals, have one text, and a parameter differs only where the literal at its position does.
-/

namespace TypedSql

/-! ### Two runs of one program -/

mutual

/-- Two expressions built by the same calls, of which the raw values may differ but are NULL or not
in both. -/
inductive Expr.BuiltAlike : Expr → Expr → Prop
  | column (c : Column) : Expr.BuiltAlike (.column c) (.column c)
  | ofValue {v v' : Value} (h : v.isNull = v'.isNull) :
      Expr.BuiltAlike (.ofValue v) (.ofValue v')
  | isNull {e e' : Expr} (he : Expr.BuiltAlike e e') : Expr.BuiltAlike e.isNull e'.isNull
  | isNotNull {e e' : Expr} (he : Expr.BuiltAlike e e') : Expr.BuiltAlike e.isNotNull e'.isNotNull
  | neg {e e' f f' : Expr} (he : Expr.BuiltAlike e e') (h : e.neg = .ok f)
      (h' : e'.neg = .ok f') : Expr.BuiltAlike f f'
  | not {e e' f f' : Expr} (he : Expr.BuiltAlike e e') (h : e.not = .ok f)
      (h' : e'.not = .ok f') : Expr.BuiltAlike f f'
  | operate {e e' f f' : Expr} {op : BinaryOp} {operand operand' : Operand}
      (he : Expr.BuiltAlike e e') (hoperand : Operand.BuiltAlike operand operand')
      (h : e.operate op operand = .ok f) (h' : e'.operate op operand' = .ok f') :
      Expr.BuiltAlike f f'
  | between {e e' f f' : Expr} {low low' high high' : Operand} {negated : Bool}
      (he : Expr.BuiltAlike e e') (hlow : Operand.BuiltAlike low low')
      (hhigh : Operand.BuiltAlike high high') (h : e.between low high negated = .ok f)
      (h' : e'.between low' high' negated = .ok f') : Expr.BuiltAlike f f'
  | inList {e e' f f' : Expr} {operands : List (Operand × Operand)} {negated : Bool}
      (he : Expr.BuiltAlike e e') (hoperands : ∀ p ∈ operands, Operand.BuiltAlike p.1 p.2)
      (h : e.inList (operands.map Prod.fst) negated = .ok f)
      (h' : e'.inList (operands.map Prod.snd) negated = .ok f') : Expr.BuiltAlike f f'
  | inSelect {e e' f f' : Expr} {query query' : Select} {negated : Bool}
      (he : Expr.BuiltAlike e e') (hquery : Select.BuiltAlike query query')
      (h : e.inSelect query negated = .ok f) (h' : e'.inSelect query' negated = .ok f') :
      Expr.BuiltAlike f f'
  | quantify {e e' f f' : Expr} {op : BinaryOp} {quantifier : Quantifier} {query query' : Select}
      (he : Expr.BuiltAlike e e') (hquery : Select.BuiltAlike query query')
      (h : e.quantify op quantifier query = .ok f)
      (h' : e'.quantify op quantifier query' = .ok f') : Expr.BuiltAlike f f'
  | existence {query query' : Select} (negated : Bool) (hquery : Select.BuiltAlike query query') :
      Expr.BuiltAlike (.existence query negated) (.existence query' negated)
  | chain {kind : Connective} {es : List (Expr × Expr)} {f f' : Expr}
      (hes : ∀ p ∈ es, Expr.BuiltAlike p.1 p.2) (h : Expr.chain kind (es.map Prod.fst) = .ok f)
      (h' : Expr.chain kind (es.map Prod.snd) = .ok f') : Expr.BuiltAlike f f'
  | rowCount : Expr.BuiltAlike .rowCount .rowCount
  | valueCount (distinct : Bool) {e e' : Expr} (he : Expr.BuiltAlike e e') :
      Expr.BuiltAlike (.valueCount distinct e) (.valueCount distinct e')
  | call {g : UnaryFunction} {e e' f f' : Expr} (he : Expr.BuiltAlike e e')
      (h : Expr.call g e = .ok f) (h' : Expr.call g e' = .ok f') : Expr.BuiltAlike f f'
  | coalesce {e e' f f' : Expr} {operand operand' : Operand} (he : Expr.BuiltAlike e e')
      (hoperand : Operand.BuiltAlike operand operand') (h : e.coalesce operand = .ok f)
      (h' : e'.coalesce operand' = .ok f') : Expr.BuiltAlike f f'
  | pick {g : Extremum} {e e' f f' : Expr} {operands : List (Operand × Operand)}
      (he : Expr.BuiltAlike e e') (hoperands : ∀ p ∈ operands, Operand.BuiltAlike p.1 p.2)
      (h : Expr.pick g e (operands.map Prod.fst) = .ok f)
      (h' : Expr.pick g e' (operands.map Prod.snd) = .ok f') : Expr.BuiltAlike f f'
  | stringAgg {e e' f f' : Expr} {separator : String} (he : Expr.BuiltAlike e e')
      (h : e.stringAgg separator = .ok f) (h' : e'.stringAgg separator = .ok f') :
      Expr.BuiltAlike f f'

/-- Two operands built alike. -/
inductive Operand.BuiltAlike : Operand → Operand → Prop
  | expr {e e' : Expr} (he : Expr.BuiltAlike e e') : Operand.BuiltAlike (.expr e) (.expr e')
  | value {v v' : Value} (h : v.isNull = v'.isNull) : Operand.BuiltAlike (.value v) (.value v')

/-- Two selects built by the same steps, of which the expressions are built alike. A step is given
by its form and by the expressions that the two runs put in the places of it. -/
inductive Select.BuiltAlike : Select → Select → Prop
  | ofTable (t : Table) : Select.BuiltAlike (.ofTable t) (.ofTable t)
  | step {r r' s s' : Select} {st : Select.Step} {g g' : Expr → Expr}
      (hr : Select.BuiltAlike r r') (hexprs : ∀ e ∈ st.exprs, Expr.BuiltAlike (g e) (g' e))
      (h : r.step (st.mapExprs g) = .ok s) (h' : r'.step (st.mapExprs g') = .ok s') :
      Select.BuiltAlike s s'

end

theorem map_mask_eq {es : List (Expr × Expr)} (h : ∀ p ∈ es, p.1.mask = p.2.mask) :
    (es.map Prod.fst).map Expr.mask = (es.map Prod.snd).map Expr.mask := by
  rw [List.map_map, List.map_map]
  exact List.map_congr_left h

theorem map_operandMask_eq {operands : List (Operand × Operand)}
    (h : ∀ p ∈ operands, p.1.mask = p.2.mask) :
    (operands.map Prod.fst).map Operand.mask = (operands.map Prod.snd).map Operand.mask := by
  rw [List.map_map, List.map_map]
  exact List.map_congr_left h

mutual

/-- What is built alike is equal up to values. -/
theorem Expr.BuiltAlike.mask_eq {e e' : Expr} : e.BuiltAlike e' → e.mask = e'.mask
  | .column c => rfl
  | .ofValue h => congrArg (Expr.literal · none) (Value.mask_eq_mask h)
  | .isNull he => congrArg (Expr.nullTest · false) he.mask_eq
  | .isNotNull he => congrArg (Expr.nullTest · true) he.mask_eq
  | .neg he h h' => by
    rw [(Expr.neg_eq_ok h).2, (Expr.neg_eq_ok h').2]
    exact congrArg Expr.negation he.mask_eq
  | .not he h h' => by
    rw [(Expr.not_eq_ok h).2, (Expr.not_eq_ok h').2]
    exact congrArg Expr.complement he.mask_eq
  | .operate he hoperand h h' => by
    rw [Expr.operate_mask h, Expr.operate_mask h', he.mask_eq, hoperand.mask_eq]
  | .between he hlow hhigh h h' => by
    rw [Expr.between_mask h, Expr.between_mask h', he.mask_eq, hlow.mask_eq, hhigh.mask_eq]
  | .inList he hoperands h h' => by
    rw [Expr.inList_mask h, Expr.inList_mask h', he.mask_eq,
      map_operandMask_eq fun p hp => (hoperands p hp).mask_eq]
  | .inSelect he hquery h h' => by
    rw [(Expr.inSelect_eq_ok h).2, (Expr.inSelect_eq_ok h').2]
    exact congrArg₂ (Expr.rowMembership · · _) he.mask_eq hquery.mask_eq
  | .quantify he hquery h h' => by
    rw [Expr.quantify_mask h, Expr.quantify_mask h', he.mask_eq, hquery.mask_eq]
  | .existence negated hquery => congrArg (Expr.existence · negated) hquery.mask_eq
  | .chain hes h h' => by
    rw [Expr.chain_mask h, Expr.chain_mask h', map_mask_eq fun p hp => (hes p hp).mask_eq]
  | .rowCount => rfl
  | .valueCount distinct he => congrArg (Expr.valueCount distinct ·) he.mask_eq
  | .call he h h' => by
    rw [(Expr.call_eq_ok h).2, (Expr.call_eq_ok h').2]
    exact congrArg (Expr.apply _ ·) he.mask_eq
  | .coalesce he hoperand h h' => by
    rw [Expr.coalesce_mask h, Expr.coalesce_mask h', he.mask_eq, hoperand.mask_eq]
  | .pick he hoperands h h' => by
    rw [Expr.pick_mask h, Expr.pick_mask h', he.mask_eq,
      map_operandMask_eq fun p hp => (hoperands p hp).mask_eq]
  | .stringAgg he h h' => by
    rw [(Expr.stringAgg_eq_ok h).2, (Expr.stringAgg_eq_ok h').2]
    exact congrArg (Expr.joinedText · _) he.mask_eq

theorem Operand.BuiltAlike.mask_eq {operand operand' : Operand} :
    operand.BuiltAlike operand' → operand.mask = operand'.mask
  | .expr he => congrArg Operand.expr he.mask_eq
  | .value h => congrArg Operand.value (Value.mask_eq_mask h)

theorem Select.BuiltAlike.mask_eq {s s' : Select} : s.BuiltAlike s' → s.mask = s'.mask
  | .ofTable t => rfl
  | .step hr hexprs h h' => by
    rw [Select.step_eq_stepped h, Select.step_eq_stepped h', Select.mask_stepped,
      Select.mask_stepped, hr.mask_eq,
      Select.Step.mask_congr fun e he => (hexprs e he).mask_eq]

end

theorem Expr.BuiltAlike.skeleton_eq {e e' : Expr} (h : e.BuiltAlike e') :
    e.skeleton = e'.skeleton := by
  rw [← e.skeleton_mask, h.mask_eq, e'.skeleton_mask]

theorem Select.BuiltAlike.skeleton_eq {s s' : Select} (h : s.BuiltAlike s') :
    s.skeleton = s'.skeleton := by
  rw [← s.skeleton_mask, h.mask_eq, s'.skeleton_mask]

/-- Two compound selects built by the same steps from members built alike. -/
inductive CompoundSelect.BuiltAlike : CompoundSelect → CompoundSelect → Prop
  | ofSelect {s s' : Select} {c c' : CompoundSelect} (hs : s.BuiltAlike s')
      (h : CompoundSelect.ofSelect s = .ok c) (h' : CompoundSelect.ofSelect s' = .ok c') :
      BuiltAlike c c'
  | combine {b b' c c' : CompoundSelect} {op : SetOperator} {member member' : Select}
      (hb : BuiltAlike b b') (hmember : member.BuiltAlike member')
      (h : b.step (.combine op member) = .ok c) (h' : b'.step (.combine op member') = .ok c') :
      BuiltAlike c c'
  | sort {b b' c c' : CompoundSelect} {e e' : Expr} {direction : Direction}
      {nulls? : Option NullPlacement} (hb : BuiltAlike b b') (he : e.BuiltAlike e')
      (h : b.step (.sort ⟨e, direction, nulls?⟩) = .ok c)
      (h' : b'.step (.sort ⟨e', direction, nulls?⟩) = .ok c') : BuiltAlike c c'
  | limit {c c' : CompoundSelect} (n : Nat) (hc : BuiltAlike c c') :
      BuiltAlike (c.limit n) (c'.limit n)
  | offset {c c' : CompoundSelect} (n : Nat) (hc : BuiltAlike c c') :
      BuiltAlike (c.offset n) (c'.offset n)

/-- Two inserts built by the same steps. A row is given by its columns with the operands that the
two runs give them. -/
inductive Insert.BuiltAlike : Insert → Insert → Prop
  | ofTable (t : Table) : BuiltAlike (.ofTable t) (.ofTable t)
  | addRow {i i' j j' : Insert} {values : List (Column × Operand × Operand)}
      (hi : BuiltAlike i i') (hvalues : ∀ x ∈ values, x.2.1.BuiltAlike x.2.2)
      (h : i.step (.addRow ⟨values.map fun x => (x.1, x.2.1)⟩) = .ok j)
      (h' : i'.step (.addRow ⟨values.map fun x => (x.1, x.2.2)⟩) = .ok j') : BuiltAlike j j'
  | returningColumns {i i' j j' : Insert} {columns : List Column} (hi : BuiltAlike i i')
      (h : i.step (.returningColumns columns) = .ok j)
      (h' : i'.step (.returningColumns columns) = .ok j') : BuiltAlike j j'

/-- Two updates built by the same steps. -/
inductive Update.BuiltAlike : Update → Update → Prop
  | ofTable (t : Table) : BuiltAlike (.ofTable t) (.ofTable t)
  | set {u u' v v' : Update} {c : Column} {operand operand' : Operand} (hu : BuiltAlike u u')
      (hoperand : operand.BuiltAlike operand') (h : u.step (.set c operand) = .ok v)
      (h' : u'.step (.set c operand') = .ok v') : BuiltAlike v v'
  | filterBy {u u' v v' : Update} {e e' : Expr} (hu : BuiltAlike u u') (he : e.BuiltAlike e')
      (h : u.step (.filterBy e) = .ok v) (h' : u'.step (.filterBy e') = .ok v') : BuiltAlike v v'
  | returningColumns {u u' v v' : Update} {columns : List Column} (hu : BuiltAlike u u')
      (h : u.step (.returningColumns columns) = .ok v)
      (h' : u'.step (.returningColumns columns) = .ok v') : BuiltAlike v v'

/-- Two deletes built by the same steps. -/
inductive Delete.BuiltAlike : Delete → Delete → Prop
  | ofTable (t : Table) : BuiltAlike (.ofTable t) (.ofTable t)
  | filterBy {x x' y y' : Delete} {e e' : Expr} (hx : BuiltAlike x x') (he : e.BuiltAlike e')
      (h : x.step? (.filterBy e) = some (.ok y)) (h' : x'.step? (.filterBy e') = some (.ok y')) :
      BuiltAlike y y'
  | allRows {x x' y y' : Delete} (hx : BuiltAlike x x') (h : x.step? .allRows = some (.ok y))
      (h' : x'.step? .allRows = some (.ok y')) : BuiltAlike y y'
  | returningColumns {x x' y y' : Delete} {columns : List Column} (hx : BuiltAlike x x')
      (h : x.step? (.returningColumns columns) = some (.ok y))
      (h' : x'.step? (.returningColumns columns) = some (.ok y')) : BuiltAlike y y'

/-- Two complete statements built by the same calls, of which the raw values may differ but are NULL
or not in both. -/
inductive Statement.BuiltAlike : Statement → Statement → Prop
  | select {s s' : Select} (hs : s.BuiltAlike s') : BuiltAlike (.select s) (.select s')
  | compound {c c' : CompoundSelect} (hc : c.BuiltAlike c') :
      BuiltAlike (.compound c) (.compound c')
  | insert {i i' : Insert} (complete : i.IsComplete) (complete' : i'.IsComplete)
      (hi : i.BuiltAlike i') : BuiltAlike (.insert i complete) (.insert i' complete')
  | update {u u' : Update} (complete : u.IsComplete) (complete' : u'.IsComplete)
      (hu : u.BuiltAlike u') : BuiltAlike (.update u complete) (.update u' complete')
  | delete {x x' : Delete} (complete : x.IsComplete) (complete' : x'.IsComplete)
      (hx : x.BuiltAlike x') : BuiltAlike (.delete x complete) (.delete x' complete')

section Statements

variable {f : Value → Value}

theorem CompoundSelect.BuiltAlike.skeleton_eq {c c' : CompoundSelect} (h : c.BuiltAlike c') :
    (c.mapValues fun _ => .null) = c'.mapValues fun _ => .null := by
  induction h with
  | @ofSelect s s' _ _ hs h h' =>
    have hs : (s.mapValues fun _ => .null) = s'.mapValues fun _ => .null := hs.skeleton_eq
    rw [ofSelect_eq_ok h, ofSelect_eq_ok h']
    simp only [mapValues, hs, List.map_nil]
  | @combine b b' _ _ op member member' _ hmember h h' ih =>
    have hmember : (member.mapValues fun _ => .null) = member'.mapValues fun _ => .null :=
      hmember.skeleton_eq
    simp only [mapValues, CompoundSelect.mk.injEq] at ih
    obtain ⟨hfirst, hrest, horder, hlimit, hoffset⟩ := ih
    rw [combine_eq_ok h, combine_eq_ok h']
    simp only [mapValues, List.map_append, List.map_cons, List.map_nil, hfirst, hrest, horder,
      hlimit, hoffset, hmember]
  | @sort b b' _ _ e e' direction nulls? _ he h h' ih =>
    have he : (e.mapValues fun _ => .null) = e'.mapValues fun _ => .null := he.skeleton_eq
    simp only [mapValues, CompoundSelect.mk.injEq] at ih
    obtain ⟨hfirst, hrest, horder, hlimit, hoffset⟩ := ih
    rw [(sort_eq_ok h).2, (sort_eq_ok h').2]
    simp only [mapValues, List.map_append, List.map_cons, List.map_nil, SortKey.mapValues, hfirst,
      hrest, horder, hlimit, hoffset, he]
  | limit n _ ih => exact congrArg (fun c => CompoundSelect.limit c n) ih
  | offset n _ ih => exact congrArg (fun c => CompoundSelect.offset c n) ih

/-! ### Rows -/

theorem Column.accept_mask {c : Column} {clause : AssignmentClause} {sources : List TableRef}
    {operand : Operand} {e : Expr} (h : c.accept clause sources operand = .ok e) :
    e.mask = (Expr.column c).resolved operand.mask := by
  unfold Column.accept at h
  split at h
  · cases h
  · obtain ⟨x, hx, h⟩ := bind_eq_ok.1 h
    obtain ⟨_, -, h⟩ := bind_eq_ok.1 h
    obtain ⟨_, -, h⟩ := bind_eq_ok.1 h
    rw [← pure_eq_ok.1 h, Expr.resolve_mask hx]
    rfl

theorem Row.encodeFrom_mask {t : Table} {seen : List Column} {values : List (Column × Operand)}
    {encoded : List (Column × Expr)} (h : encodeFrom t seen values = .ok encoded) :
    encoded.map (fun p => (p.1, p.2.mask)) =
      values.map fun p => (p.1, (Expr.column p.1).resolved p.2.mask) := by
  induction values generalizing seen encoded with
  | nil =>
    cases h
    rfl
  | cons value values ih =>
    obtain ⟨c, operand⟩ := value
    obtain ⟨_, -, h⟩ := bind_eq_ok.1 h
    split at h
    · cases h
    · obtain ⟨e, he, h⟩ := bind_eq_ok.1 h
      obtain ⟨rest, hrest, h⟩ := bind_eq_ok.1 h
      rw [← pure_eq_ok.1 h, List.map_cons, List.map_cons, ih hrest, Column.accept_mask he]

theorem Row.encode_mask {r : Row} {t : Table} {encoded : List (Column × Expr)}
    (h : r.encode t = .ok encoded) :
    encoded.map (fun p => (p.1, p.2.mask)) =
      r.values.map fun p => (p.1, (Expr.column p.1).resolved p.2.mask) := by
  unfold encode at h
  split at h
  · cases h
  · exact encodeFrom_mask h

/-- An insert with the values of a row added, where nothing is refused. -/
def Insert.extended (i : Insert) (values : List (Column × Expr)) : Insert :=
  if i.columns.isEmpty then
    { i with columns := values.map Prod.fst, rows := i.rows ++ [values.map Prod.snd] }
  else { i with rows := i.rows ++ (align i.columns values).toList }

theorem Insert.addRow_eq_extended {i j : Insert} {r : Row} (h : i.addRow r = .ok j) :
    ∃ values, r.encode i.table = .ok values ∧ j = i.extended values := by
  obtain ⟨values, hvalues, h⟩ := bind_eq_ok.1 h
  refine ⟨values, hvalues, ?_⟩
  unfold extended
  split at h
  · rename_i hcolumns
    rw [if_pos hcolumns, pure_eq_ok.1 h]
  · rename_i hcolumns
    rw [if_neg hcolumns]
    simp only at h
    split at h
    · split at h
      · rename_i row hrow
        rw [hrow, ← pure_eq_ok.1 h]
        rfl
      · cases h
    · cases h

theorem Insert.align_mapValues (columns : List Column) (values : List (Column × Expr)) :
    align columns (values.map fun p => (p.1, p.2.mapValues f)) =
      (align columns values).map (List.map (Expr.mapValues f)) := by
  induction columns with
  | nil => rfl
  | cons c columns ih =>
    have hfind : ((values.map fun p => (p.1, p.2.mapValues f)).find? fun p => p.1.sameAs c) =
        (values.find? fun p => p.1.sameAs c).map fun p => (p.1, p.2.mapValues f) := by
      rw [List.find?_map]
      rfl
    unfold align at ih ⊢
    rw [List.mapM_cons, List.mapM_cons, ih, hfind]
    cases values.find? fun p => p.1.sameAs c with
    | none => rfl
    | some p => cases List.mapM (m := Option) _ columns <;> rfl

theorem Insert.mapValues_extended (i : Insert) (values : List (Column × Expr)) :
    (i.extended values).mapValues f =
      (i.mapValues f).extended (values.map fun p => (p.1, p.2.mapValues f)) := by
  have hsame : (i.mapValues f).columns = i.columns := rfl
  unfold extended
  rw [align_mapValues, hsame]
  split
  · simp [mapValues]
  · simp [mapValues, Option.toList_map]

theorem Insert.BuiltAlike.skeleton_eq {i i' : Insert} (h : i.BuiltAlike i') :
    (i.mapValues fun _ => .null) = i'.mapValues fun _ => .null := by
  induction h with
  | ofTable t => rfl
  | @addRow i i' _ _ values _ hvalues h h' ih =>
    obtain ⟨encoded, hencoded, rfl⟩ := addRow_eq_extended h
    obtain ⟨encoded', hencoded', rfl⟩ := addRow_eq_extended h'
    have hmasked : encoded.map (fun p => (p.1, p.2.mask)) =
        encoded'.map fun p => (p.1, p.2.mask) := by
      rw [Row.encode_mask hencoded, Row.encode_mask hencoded', List.map_map, List.map_map]
      refine List.map_congr_left fun x hx => ?_
      simp [(hvalues x hx).mask_eq]
    have hskeletons := congrArg (List.map fun p => (p.1, p.2.skeleton)) hmasked
    simp only [List.map_map, Function.comp_def, Expr.skeleton_mask] at hskeletons
    rw [mapValues_extended, mapValues_extended, ih]
    exact congrArg _ hskeletons
  | returningColumns _ h h' ih =>
    rw [(returningColumns_eq_ok h).2, (returningColumns_eq_ok h').2]
    simp only [mapValues, Insert.mk.injEq] at ih ⊢
    exact ⟨ih.1, ih.2.1, ih.2.2.1, trivial⟩

/-! ### Conditions and assignments -/

theorem Expr.attach_skeleton {condition? condition'? : Option Expr} {e e' g g' : Expr}
    (h : Expr.attach condition? e = .ok g) (h' : Expr.attach condition'? e' = .ok g')
    (hcondition : condition?.map Expr.skeleton = condition'?.map Expr.skeleton)
    (he : e.BuiltAlike e') : g.skeleton = g'.skeleton := by
  rw [attach_eq_attached h, attach_eq_attached h', skeleton, skeleton, mapValues_attached,
    mapValues_attached]
  exact congrArg₂ attached hcondition he.skeleton_eq

theorem Update.put_mapValues (c : Column) (e : Expr) (assignments : List (Column × Expr)) :
    (put c e assignments).map (fun a => (a.1, a.2.mapValues f)) =
      put c (e.mapValues f) (assignments.map fun a => (a.1, a.2.mapValues f)) := by
  induction assignments with
  | nil => rfl
  | cons a assignments ih =>
    obtain ⟨d, g⟩ := a
    simp only [put, List.map_cons]
    split
    · rfl
    · rw [List.map_cons, ih]

theorem Update.set_eq_put {u v : Update} {c : Column} {operand : Operand}
    (h : u.set c operand = .ok v) :
    ∃ e, e.mask = (Expr.column c).resolved operand.mask ∧
      v = { u with assignments := put c e u.assignments } := by
  obtain ⟨_, -, h⟩ := bind_eq_ok.1 h
  obtain ⟨e, he, h⟩ := bind_eq_ok.1 h
  exact ⟨e, Column.accept_mask he, (pure_eq_ok.1 h).symm⟩

theorem Update.BuiltAlike.skeleton_eq {u u' : Update} (h : u.BuiltAlike u') :
    (u.mapValues fun _ => .null) = u'.mapValues fun _ => .null := by
  induction h with
  | ofTable t => rfl
  | @set u u' _ _ c _ _ _ hoperand h h' ih =>
    obtain ⟨e, he, rfl⟩ := set_eq_put h
    obtain ⟨e', he', rfl⟩ := set_eq_put h'
    have hskeleton : (e.mapValues fun _ => .null) = e'.mapValues fun _ => .null := by
      have hmask : e.mask = e'.mask := by rw [he, he', hoperand.mask_eq]
      exact e.skeleton_mask.symm.trans (hmask ▸ e'.skeleton_mask)
    simp only [mapValues, Update.mk.injEq] at ih ⊢
    refine ⟨ih.1, ?_, ih.2.2⟩
    rw [put_mapValues, put_mapValues, ih.2.1, hskeleton]
  | @filterBy u u' _ _ _ _ _ he h h' ih =>
    obtain ⟨-, -, filter, hattach, rfl⟩ := filterBy_eq_ok h
    obtain ⟨-, -, filter', hattach', rfl⟩ := filterBy_eq_ok h'
    simp only [mapValues, Update.mk.injEq] at ih ⊢
    have hfilter := Expr.attach_skeleton hattach hattach' ih.2.2.1 he
    exact ⟨ih.1, ih.2.1, congrArg some hfilter, ih.2.2.2⟩
  | returningColumns _ h h' ih =>
    rw [(returningColumns_eq_ok h).2, (returningColumns_eq_ok h').2]
    simp only [mapValues, Update.mk.injEq] at ih ⊢
    exact ⟨ih.1, ih.2.1, ih.2.2.1, trivial⟩

theorem Delete.condition?_mapValues (x : Delete) :
    (x.mapValues f).condition? = x.condition?.map (Expr.mapValues f) := by
  obtain ⟨table, extent, returning⟩ := x
  cases extent <;> rfl

theorem Delete.BuiltAlike.skeleton_eq {x x' : Delete} (h : x.BuiltAlike x') :
    (x.mapValues fun _ => .null) = x'.mapValues fun _ => .null := by
  induction h with
  | ofTable t => rfl
  | @filterBy x x' _ _ _ _ _ he h h' ih =>
    obtain ⟨-, -, condition, hattach, rfl⟩ := filterBy_eq_ok (step?_filterBy_eq_ok h)
    obtain ⟨-, -, condition', hattach', rfl⟩ := filterBy_eq_ok (step?_filterBy_eq_ok h')
    have hcondition : x.condition?.map Expr.skeleton = x'.condition?.map Expr.skeleton := by
      have := congrArg condition? ih
      rwa [condition?_mapValues, condition?_mapValues] at this
    have hskeleton := Expr.attach_skeleton hattach hattach' hcondition he
    simp only [mapValues, Delete.mk.injEq] at ih ⊢
    exact ⟨ih.1, congrArg DeleteExtent.matching hskeleton, ih.2.2⟩
  | allRows _ h h' ih =>
    rw [step?_allRows_eq_ok h, step?_allRows_eq_ok h']
    simp only [mapValues, Delete.mk.injEq] at ih ⊢
    exact ⟨ih.1, trivial, ih.2.2⟩
  | returningColumns _ h h' ih =>
    rw [(step?_returningColumns_eq_ok h).2, (step?_returningColumns_eq_ok h').2]
    simp only [mapValues, Delete.mk.injEq] at ih ⊢
    exact ⟨ih.1, ih.2.1, trivial⟩

/-- Statements built alike have one skeleton. -/
theorem Statement.BuiltAlike.skeleton_eq {s t : Statement} (h : s.BuiltAlike t) :
    s.skeleton = t.skeleton := by
  cases h with
  | select hs => exact congrArg Statement.select hs.skeleton_eq
  | compound hc => exact congrArg Statement.compound hc.skeleton_eq
  | insert _ _ hi => simp only [skeleton, mapValues, hi.skeleton_eq]
  | update _ _ hu => simp only [skeleton, mapValues, hu.skeleton_eq]
  | delete _ _ hx => simp only [skeleton, mapValues, hx.skeleton_eq]

end Statements

/-! ### The same run twice -/

section SameRun

variable {tables : Set Table}

theorem Operand.BuiltAlike.of_expr {operand : Operand}
    (h : ∀ x, operand.expr? = some x → x.BuiltAlike x) : operand.BuiltAlike operand := by
  cases operand with
  | expr e => exact .expr (h e rfl)
  | value v => exact .value rfl

theorem Select.Step.mapExprs_id (st : Select.Step) : st.mapExprs id = st := by
  cases st with
  | project es => exact congrArg Step.project (List.map_id es)
  | sort k => cases k; rfl
  | _ => rfl

/-- A list beside itself. -/
def beside {α : Type} (as : List α) : List (α × α) :=
  as.map fun a => (a, a)

theorem map_fst_beside {α : Type} (as : List α) : (beside as).map Prod.fst = as := by
  simp [beside, Function.comp_def]

theorem map_snd_beside {α : Type} (as : List α) : (beside as).map Prod.snd = as := by
  simp [beside, Function.comp_def]

theorem forall_mem_beside {α : Type} {as : List α} {R : α → α → Prop} (h : ∀ a ∈ as, R a a) :
    ∀ p ∈ beside as, R p.1 p.2 :=
  List.forall_mem_map.2 h

mutual

/-- What is built is built alike to itself: the relation covers every way of building. -/
theorem Expr.Built.builtAlike {e : Expr} : e.Built tables → e.BuiltAlike e
  | .column hc => .column _
  | .ofValue v => .ofValue rfl
  | .isNull he => .isNull he.builtAlike
  | .isNotNull he => .isNotNull he.builtAlike
  | .neg he h => .neg he.builtAlike h h
  | .not he h => .not he.builtAlike h h
  | .operate he hoperand h =>
    .operate he.builtAlike (.of_expr fun x hx => (hoperand x hx).builtAlike) h h
  | .between he hlow hhigh h =>
    .between he.builtAlike (.of_expr fun x hx => (hlow x hx).builtAlike)
      (.of_expr fun x hx => (hhigh x hx).builtAlike) h h
  | .inList he hoperands h =>
    .inList he.builtAlike
      (forall_mem_beside fun operand hmem =>
        .of_expr fun x hx => (hoperands operand hmem x hx).builtAlike)
      (by rwa [map_fst_beside]) (by rwa [map_snd_beside])
  | .inSelect he hquery h => .inSelect he.builtAlike hquery.builtAlike h h
  | .quantify he hquery h => .quantify he.builtAlike hquery.builtAlike h h
  | .existence negated hquery => .existence negated hquery.builtAlike
  | .chain hes h =>
    .chain (forall_mem_beside fun e he => (hes e he).builtAlike) (by rwa [map_fst_beside])
      (by rwa [map_snd_beside])
  | .rowCount => .rowCount
  | .valueCount distinct he => .valueCount distinct he.builtAlike
  | .call he h => .call he.builtAlike h h
  | .coalesce he hoperand h =>
    .coalesce he.builtAlike (.of_expr fun x hx => (hoperand x hx).builtAlike) h h
  | .pick he hoperands h =>
    .pick he.builtAlike
      (forall_mem_beside fun operand hmem =>
        .of_expr fun x hx => (hoperands operand hmem x hx).builtAlike)
      (by rwa [map_fst_beside]) (by rwa [map_snd_beside])
  | .stringAgg he h => .stringAgg he.builtAlike h h

theorem Select.Built.builtAlike {s : Select} : s.Built tables → s.BuiltAlike s
  | .ofTable ht => .ofTable _
  | .step hs hexprs _ _ h =>
    have hexprs' : ∀ e ∈ _, Expr.BuiltAlike (id e) (id e) := fun e he => (hexprs e he).builtAlike
    .step hs.builtAlike hexprs' (by rwa [Select.Step.mapExprs_id])
      (by rwa [Select.Step.mapExprs_id])

end

theorem CompoundSelect.Built.builtAlike {c : CompoundSelect} (h : c.Built tables) :
    c.BuiltAlike c := by
  induction h with
  | ofSelect hs h => exact .ofSelect hs.builtAlike h h
  | combine _ hmember h ih => exact .combine ih hmember.builtAlike h h
  | @sort _ _ k _ hk h ih =>
    obtain ⟨e, direction, nulls?⟩ := k
    exact .sort ih hk.builtAlike h h
  | limit n _ ih => exact .limit n ih
  | offset n _ ih => exact .offset n ih

theorem Insert.Built.builtAlike {i : Insert} (h : i.Built tables) : i.BuiltAlike i := by
  induction h with
  | ofTable ht => exact .ofTable _
  | @addRow i i' r _ _ hoperands h ih =>
    obtain ⟨values⟩ := r
    have hvalues : ∀ x ∈ values.map (fun p => (p.1, p.2, p.2)), x.2.1.BuiltAlike x.2.2 :=
      List.forall_mem_map.2 fun p hp => .of_expr fun x hx => (hoperands p hp x hx).builtAlike
    refine .addRow ih hvalues ?_ ?_
    · simpa [Function.comp_def] using h
    · simpa [Function.comp_def] using h
  | returningColumns _ _ h ih => exact .returningColumns ih h h

theorem Update.Built.builtAlike {u : Update} (h : u.Built tables) : u.BuiltAlike u := by
  induction h with
  | ofTable ht => exact .ofTable _
  | set _ _ hoperand h ih =>
    exact .set ih (.of_expr fun x hx => (hoperand x hx).builtAlike) h h
  | filterBy _ he h ih => exact .filterBy ih he.builtAlike h h
  | returningColumns _ _ h ih => exact .returningColumns ih h h

theorem Delete.Built.builtAlike {x : Delete} (h : x.Built tables) : x.BuiltAlike x := by
  induction h with
  | ofTable ht => exact .ofTable _
  | filterBy _ he h ih => exact .filterBy ih he.builtAlike h h
  | allRows _ h ih => exact .allRows ih h h
  | returningColumns _ _ h ih => exact .returningColumns ih h h

/-- Every statement that is built is built alike to itself. -/
theorem Statement.Built.builtAlike {s : Statement} (h : s.Built tables) : s.BuiltAlike s := by
  cases h with
  | select hs => exact .select hs.builtAlike
  | compound hc => exact .compound hc.builtAlike
  | insert complete hi => exact .insert complete complete hi.builtAlike
  | update complete hu => exact .update complete complete hu.builtAlike
  | delete complete hx => exact .delete complete complete hx.builtAlike

end SameRun

/-! ### Compiled statements -/

/-- **Values do not interfere with texts.** Statements that are equal up to the values of their
literals, or that two runs of one program build from raw values that are NULL or not in both, have
one text for every dialect and in every spelling. Their parameters are picked from their literals in
one order, which is that of all statements of this skeleton, so that parameters differ only where
their literals do. -/
theorem Statement.compile_noninterference (d : Dialect) (spelling : Spelling) {s t : Statement}
    (h : s.skeleton = t.skeleton ∨ s.BuiltAlike t) :
    (s.compileIn d spelling).sql = (t.compileIn d spelling).sql ∧
      (s.compile d).sql = (t.compile d).sql ∧
      (s.compileIn d spelling).parameters = (s.compile d).parameters ∧
      (s.compile d).parameters.length = (t.compile d).parameters.length ∧
      ∃ order : List Nat,
        (∀ u : Statement, u.skeleton = s.skeleton →
          Picks order u.nodes (u.compile d).parameters) ∧
        ∀ i : Nat, (s.compile d).parameters[i]? ≠ (t.compile d).parameters[i]? →
          ∃ k : Nat, order[i]? = some k ∧ s.nodes[k]? ≠ t.nodes[k]? := by
  have hskeleton : s.skeleton = t.skeleton := h.elim id BuiltAlike.skeleton_eq
  obtain ⟨order, horder⟩ := s.exists_order d
  have hs := horder s rfl
  have ht := horder t hskeleton.symm
  refine ⟨sql_eq_of_skeleton hskeleton d spelling, ?_, rfl, ?_, order, horder, fun i hi => ?_⟩
  · rw [← s.compileIn_spelling, ← t.compileIn_spelling]
    exact sql_eq_of_skeleton hskeleton d d.spelling
  · calc (s.compile d).parameters.length
        = order.length := by simpa using (congrArg List.length hs).symm
      _ = (t.compile d).parameters.length := by simpa using congrArg List.length ht
  · exact hs.node_ne ht hi

/-- The goods above a price. -/
def goodsAbove (bound : Value) : Statement :=
  .select { Select.ofTable goods with
    filter? := some (.binary (.column price) (.compare .gt) (.literal bound (some .integer))) }

/-- Two runs that ask for goods above different prices build alike. -/
theorem goodsAbove_builtAlike : (goodsAbove (.int 5)).BuiltAlike (goodsAbove (.int 7)) := by
  have hfive : (Expr.column price).operate (.compare .gt) (.value (.int 5)) =
      .ok (.binary (.column price) (.compare .gt) (.literal (.int 5) (some .integer))) := rfl
  have hseven : (Expr.column price).operate (.compare .gt) (.value (.int 7)) =
      .ok (.binary (.column price) (.compare .gt) (.literal (.int 7) (some .integer))) := rfl
  have hprices : (Operand.value (.int 5)).BuiltAlike (.value (.int 7)) := .value rfl
  have hcondition := Expr.BuiltAlike.operate (.column price) hprices hfive hseven
  have hexprs : ∀ e ∈ (Select.Step.filterBy .rowCount).exprs, Expr.BuiltAlike _ _ :=
    fun _ _ => hcondition
  exact .select (.step (.ofTable goods) hexprs rfl rfl)

theorem compile_noninterference_goodsAbove :
    (goodsAbove (.int 5)).BuiltAlike (goodsAbove (.int 7)) ∧
      (goodsAbove (.int 5)).skeleton = (goodsAbove (.int 7)).skeleton ∧
      (((goodsAbove (.int 5)).compile .postgres).sql =
        ((goodsAbove (.int 7)).compile .postgres).sql) ∧
      ((goodsAbove (.int 5)).compile .postgres).parameters ≠
        ((goodsAbove (.int 7)).compile .postgres).parameters := by
  obtain ⟨-, hsql, -⟩ := Statement.compile_noninterference .postgres Dialect.postgres.spelling
    (.inr goodsAbove_builtAlike)
  exact ⟨goodsAbove_builtAlike, rfl, hsql, by decide⟩

end TypedSql
