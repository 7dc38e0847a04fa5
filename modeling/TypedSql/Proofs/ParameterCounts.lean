import TypedSql.Proofs.Quoting
import TypedSql.Proofs.Rows

/-!
# Counts of parameters

`Expr.parameterCount` is computed from the tree alone, and the parameters of a compiled statement
from its layout for a dialect. A *slot* of a layout is a piece that writes a value: a parameter, or
a text that is written as a literal. Where no sort key is written twice, a layout has as many slots
as the tree has parameters (`Expr.slots_pieces`, `Select.slots_pieces`).

So the count is the number of parameters exactly if no value is written as a literal. Only the
separator of a text aggregate ever is, and only for dialects where that is a clause of its own; for
these the count is too high by the number of the separators.
-/

namespace TypedSql

/-! ### Slots -/

/-- The text that a token quotes. -/
def Token.quotedText? {α : Type} : Token α → Option String
  | .quotedText s => some s
  | _ => none

theorem Token.quotedText?_of_isFixed {α : Type} {t : Token α} (h : t.isFixed = true) :
    t.quotedText? = none := by
  cases t <;> first | rfl | cases h

/-- The texts that a compiled statement writes as literals. -/
def Compiled.quotedTexts (d : Dialect) (c : Compiled) : List String :=
  (lex d.identifierQuote c.sql).filterMap Token.quotedText?

namespace Piece

/-- A piece that writes a value. -/
def slot? : Piece → Option Unit
  | .parameter _ | .quotedText _ => some ()
  | _ => none

/-- The text that a piece writes as a literal. -/
def quotedText? : Piece → Option String
  | .quotedText s => some s
  | _ => none

/-- The texts that pieces write as literals, in order. -/
def quotedTexts (ps : List Piece) : List String :=
  ps.filterMap quotedText?

theorem slot?_ignoresText : IgnoresText slot? := fun _ => rfl

theorem slot?_ignoresNotices : IgnoresNotices slot? := fun _ => rfl

theorem slot?_ignoresNames : IgnoresNames slot? := fun _ => rfl

/-- Values are bound or written as literals. -/
theorem length_slots (ps : List Piece) :
    (ps.filterMap slot?).length = (parameters ps).length + (quotedTexts ps).length := by
  induction ps with
  | nil => rfl
  | cons p ps ih =>
    simp only [parameters, quotedTexts] at ih ⊢
    cases p <;> simp [List.filterMap_cons, slot?, parameter?, quotedText?, ih] <;> omega

end Piece

/-- So many slots. -/
def slots (n : Nat) : List Unit :=
  List.replicate n ()

@[simp] theorem slots_zero : slots 0 = [] := rfl

@[simp] theorem length_slots (n : Nat) : (slots n).length = n :=
  List.length_replicate

@[simp] theorem slots_append (m n : Nat) : slots m ++ slots n = slots (m + n) :=
  List.replicate_append_replicate

/-- The slots of a list are counted item by item. -/
@[simp] theorem flatMap_slots {α : Type} (count : α → Nat) (as : List α) :
    (as.flatMap fun a => slots (count a)) = slots (totalOf count as) := by
  induction as with
  | nil => rfl
  | cons a as ih => rw [List.flatMap_cons, ih, slots_append, totalOf_cons]

/-! ### Keys that are written once -/

/-- A dialect writes each of some sort keys once: it knows placements of NULL, or there are none. -/
def Dialect.WritesOnce (d : Dialect) (keys : List SortKey) : Prop :=
  d.supportsNullPlacement = true ∨ ∀ k ∈ keys, k.nulls? = none

/-- A dialect writes all sort keys in an expression once, at any depth. -/
abbrev Expr.IsWrittenOnce (d : Dialect) (e : Expr) : Prop :=
  e.Everywhere (fun _ => True) fun s => d.WritesOnce s.orderBy

/-- A dialect writes all sort keys of a select and in it once, at any depth. -/
abbrev Select.IsWrittenOnce (d : Dialect) (s : Select) : Prop :=
  s.Everywhere (fun _ => True) fun s => d.WritesOnce s.orderBy

/-- A dialect writes all sort keys of a compound select and in it once, at any depth. -/
structure CompoundSelect.IsWrittenOnce (d : Dialect) (c : CompoundSelect) : Prop where
  everywhere : c.Everywhere (fun _ => True) fun s => d.WritesOnce s.orderBy
  orderBy : d.WritesOnce c.orderBy

section Counts

variable {d : Dialect}

/-- A dialect that knows placements of NULL writes all sort keys once. -/
theorem Expr.isWrittenOnce (hd : d.supportsNullPlacement = true) (e : Expr) : e.IsWrittenOnce d :=
  Expr.induction (P := Expr.IsWrittenOnce d) (Q := Select.IsWrittenOnce d)
    (fun _ children query => .intro trivial children query)
    (fun _ clauses => .intro (.inl hd) clauses) e

theorem Select.isWrittenOnce (hd : d.supportsNullPlacement = true) (s : Select) :
    s.IsWrittenOnce d :=
  .intro (.inl hd) fun e _ => e.isWrittenOnce hd

theorem CompoundSelect.isWrittenOnce (hd : d.supportsNullPlacement = true) (c : CompoundSelect) :
    c.IsWrittenOnce d :=
  ⟨⟨fun s _ => s.isWrittenOnce hd, fun k _ => k.expr.isWrittenOnce hd⟩, .inl hd⟩

theorem Dialect.WritesOnce.keyView_eq {keys : List SortKey} (h : d.WritesOnce keys) {β : Type}
    (xs : List β) : ∀ k ∈ keys, Piece.keyView (!d.supportsNullPlacement) k.nulls? xs = xs := by
  intro k hk
  obtain h | h := h
  · simp [Piece.keyView, h]
  · simp [Piece.keyView, h k hk]

/-- The slots of an expression are put together from those of its parts, as its count is. -/
theorem Expr.assembled_slots (qualify : Bool) (e : Expr) :
    e.assembled d Piece.slot? qualify (fun c => slots c.parameterCount)
      (fun s => slots s.parameterCount) = slots e.parameterCount := by
  cases e with
  | column c => exact c.view_pieces Piece.slot?_ignoresText Piece.slot?_ignoresNames qualify
  | literal v type? => rfl
  | rowCount => rfl
  | junction kind parts =>
    simp [assembled, children, query?, parameterCount, parametersOfAll_eq]
  | extremum g first second rest =>
    simp [assembled, children, query?, parameterCount, parametersOfAll_eq, Nat.add_assoc]
  | joinedText e separator =>
    have hseparator : [if d.separatorClause then Piece.quotedText separator
        else Piece.parameter (.text separator)].filterMap Piece.slot? = slots 1 := by
      cases d.separatorClause <;> rfl
    rw [assembled, hseparator, slots_append, parameterCount]
  | listMembership e items negated =>
    cases items <;> simp [assembled, children, query?, parameterCount, parametersOfAll_eq]
  | range e low high negated =>
    simp [assembled, children, query?, parameterCount, Nat.add_assoc]
  | _ => simp [assembled, children, query?, parameterCount]

/-- A select has the slots of its clauses, as its count says, if their expressions do. -/
theorem Select.slots_pieces_of_clauses (s : Select) (honce : d.WritesOnce s.orderBy)
    (h : ∀ e ∈ s.clauseExprs, ∀ qualify,
      (e.pieces d qualify).filterMap Piece.slot? = slots e.parameterCount) :
    (s.pieces d).filterMap Piece.slot? = slots s.parameterCount := by
  obtain ⟨hprojections, hjoins, hfilter, hhaving, horder⟩ :=
    s.forall_clauseExprs.1 fun e he => h e he s.qualifies
  have hkeys : ∀ k ∈ s.orderBy, Piece.keyView (!d.supportsNullPlacement) k.nulls?
      ((k.expr.pieces d s.qualifies).filterMap Piece.slot?) = slots k.expr.parameterCount :=
    fun k hk => by rw [honce.keyView_eq _ k hk, horder k hk]
  rw [Select.view_pieces_clauses Piece.slot?_ignoresText Piece.slot?_ignoresNames
      Piece.slot?_ignoresNotices, List.flatMap_congr hprojections,
    List.flatMap_congr fun j hj => List.flatMap_congr (hjoins j hj), List.flatMap_congr hfilter,
    List.flatMap_congr hhaving, List.flatMap_congr hkeys]
  rw [parameterCount_eq, ← flatMap_slots]
  simp only [clauseExprs, List.flatMap_append, List.flatMap_map, List.filterMap_eq_flatMap_toList,
    List.flatMap_assoc]

/-- **An expression has as many slots as it counts parameters**, where sort keys are written
once. -/
theorem Expr.slots_pieces {e : Expr} (honce : e.IsWrittenOnce d) (qualify : Bool) :
    (e.pieces d qualify).filterMap Piece.slot? = slots e.parameterCount := by
  refine Expr.induction
    (P := fun e => e.IsWrittenOnce d → ∀ qualify,
      (e.pieces d qualify).filterMap Piece.slot? = slots e.parameterCount)
    (Q := fun s => s.IsWrittenOnce d →
      (s.pieces d).filterMap Piece.slot? = slots s.parameterCount)
    (fun e parts query honce qualify => ?_) (fun s clauses honce => ?_) e honce qualify
  · rw [Expr.view_pieces Piece.slot?_ignoresText Piece.slot?_ignoresNotices,
      ← e.assembled_slots qualify]
    exact Expr.assembled_congr _ _ _ e
      (fun c hc => parts c hc (honce.children c hc) qualify)
      fun s hs => query s hs (honce.query s hs)
  · exact s.slots_pieces_of_clauses honce.here fun e he => clauses e he (honce.clauses e he)

theorem Select.slots_pieces {s : Select} (honce : s.IsWrittenOnce d) :
    (s.pieces d).filterMap Piece.slot? = slots s.parameterCount :=
  s.slots_pieces_of_clauses honce.here fun e he => Expr.slots_pieces (honce.clauses e he)

theorem CompoundSelect.slots_pieces {c : CompoundSelect} (honce : c.IsWrittenOnce d) :
    (c.pieces d).filterMap Piece.slot? = slots c.parameterCount := by
  have hmembers : (memberPieces d c.rest).filterMap Piece.slot? =
      slots (totalOf Select.parameterCount (c.rest.map Prod.snd)) := by
    have hrest : ∀ m ∈ c.rest, (m.2.pieces d).filterMap Piece.slot? = slots m.2.parameterCount :=
      fun m hm => Select.slots_pieces
        (honce.everywhere.members m.2 (List.mem_cons_of_mem _ (List.mem_map_of_mem hm)))
    rw [memberPieces, List.filterMap_flatMap, ← flatMap_slots, List.flatMap_map]
    refine List.flatMap_congr fun m hm => ?_
    rw [Piece.view_text_cons Piece.slot?_ignoresText, hrest m hm]
  have hkeys : (orderPieces (sortPieces d false c.orderBy)).filterMap Piece.slot? =
      slots (totalOf (fun k => k.expr.parameterCount) c.orderBy) := by
    rw [Piece.view_orderPieces Piece.slot?_ignoresText, sortPieces_eq, List.flatMap_map,
      ← flatMap_slots]
    refine List.flatMap_congr fun k hk => ?_
    have hkey : (k.pieces d false).filterMap Piece.slot? =
        Piece.keyView (!d.supportsNullPlacement) k.nulls?
          ((k.expr.pieces d false).filterMap Piece.slot?) :=
      Piece.view_sortKeyPieces Piece.slot?_ignoresText Piece.slot?_ignoresNotices ..
    rw [hkey, honce.orderBy.keyView_eq _ k hk,
      Expr.slots_pieces (honce.everywhere.orderBy k hk)]
  have hfirst := Select.slots_pieces (honce.everywhere.members c.first (List.mem_cons_self ..))
  rw [CompoundSelect.pieces, List.filterMap_append, List.filterMap_append, List.filterMap_append,
    hfirst, hmembers, hkeys, Piece.view_pagePieces Piece.slot?_ignoresText, slots_append,
    slots_append, List.append_nil]
  rfl

end Counts

/-! ### Texts that are written as literals -/

section Quoted

variable {d : Dialect}

/-- The texts that the lexer finds in a tidy layout are those that it writes as literals. -/
theorem Piece.quotedTexts_tokens (hd : d.IsPlain) {e : Edge} {ps : List Piece} (hps : Tidy e ps)
    (n : Nat) : (tokens d n ps).filterMap Token.quotedText? = quotedTexts ps := by
  rw [view_tokens hd Token.quotedText?_of_isFixed hps n]
  clear hps
  induction ps generalizing n with
  | nil => rfl
  | cons p ps ih =>
    cases p with
    | quotedText s =>
      have htexts : quotedTexts (.quotedText s :: ps) = s :: quotedTexts ps := rfl
      rw [htexts, ← ih n]
      rfl
    | parameter v =>
      have hnone : (d.placeholderStyle.token n).quotedText? = none := by
        cases d.placeholderStyle <;> rfl
      rw [regions, List.filterMap_cons, hnone]
      exact ih (n + 1)
    | text s => exact ih n
    | identifier name => exact ih n
    | notice k => exact ih n

/-- The texts that the lexer finds in a compiled statement are those that its layout writes as
literals. -/
theorem Statement.quotedTexts_compile (hd : d.IsPlain) (s : Statement) :
    (s.compile d).quotedTexts d = Piece.quotedTexts (s.pieces d) := by
  rw [Compiled.quotedTexts, lex_compile hd]
  exact Piece.quotedTexts_tokens hd (s.tidy_pieces hd) 1

/-- No text is written as a literal where separators are bound. -/
theorem Piece.Emitted.quotedTexts_eq_nil {spoken : String → Prop} {ps : List Piece}
    (h : Piece.Emitted d spoken ps) (hd : d.separatorClause = false) :
    Piece.quotedTexts ps = [] := by
  refine List.filterMap_eq_nil_iff.2 fun p hp => ?_
  cases p with
  | quotedText s => simp [h.2 s hp] at hd
  | _ => rfl

end Quoted

/-! ### Counts and parameters -/

/-- **The count of an expression or a select is the number of its parameters and of the texts that
are written as literals**, where no sort key with a placement of NULL is written twice. For all
built-in dialects but MySQL there are no such texts, and no key is written twice, so that the count
is the number of parameters. For MySQL, the count is right exactly where the text has no literal. -/
theorem parameterCount_eq_length (k : DialectKind) :
    (∀ (e : Expr) (qualify : Bool), e.IsWrittenOnce k.dialect →
      e.parameterCount = (Piece.parameters (e.pieces k.dialect qualify)).length +
        (Piece.quotedTexts (e.pieces k.dialect qualify)).length) ∧
      (∀ s : Select, s.IsWrittenOnce k.dialect →
        s.parameterCount = ((Statement.select s).compile k.dialect).parameters.length +
          (((Statement.select s).compile k.dialect).quotedTexts k.dialect).length) ∧
      (∀ c : CompoundSelect, c.IsWrittenOnce k.dialect →
        c.parameterCount = ((Statement.compound c).compile k.dialect).parameters.length +
          (((Statement.compound c).compile k.dialect).quotedTexts k.dialect).length) ∧
      (k ≠ .mysql →
        (∀ (e : Expr) (qualify : Bool),
          e.parameterCount = (Piece.parameters (e.pieces k.dialect qualify)).length) ∧
        (∀ s : Select,
          s.parameterCount = ((Statement.select s).compile k.dialect).parameters.length) ∧
        ∀ c : CompoundSelect,
          c.parameterCount = ((Statement.compound c).compile k.dialect).parameters.length) := by
  have hexpr : ∀ (e : Expr) (qualify : Bool), e.IsWrittenOnce k.dialect →
      e.parameterCount = (Piece.parameters (e.pieces k.dialect qualify)).length +
        (Piece.quotedTexts (e.pieces k.dialect qualify)).length := fun e qualify he => by
    rw [← Piece.length_slots, Expr.slots_pieces he, length_slots]
  have hselect : ∀ s : Select, s.IsWrittenOnce k.dialect →
      s.parameterCount = (Piece.parameters (s.pieces k.dialect)).length +
        (Piece.quotedTexts (s.pieces k.dialect)).length := fun s hs => by
    rw [← Piece.length_slots, Select.slots_pieces hs, length_slots]
  have hcompound : ∀ c : CompoundSelect, c.IsWrittenOnce k.dialect →
      c.parameterCount = (Piece.parameters (c.pieces k.dialect)).length +
        (Piece.quotedTexts (c.pieces k.dialect)).length := fun c hc => by
    rw [← Piece.length_slots, CompoundSelect.slots_pieces hc, length_slots]
  refine ⟨hexpr, fun s hs => ?_, fun c hc => ?_, fun hk => ?_⟩
  · rw [Statement.quotedTexts_compile k.isPlain]
    exact hselect s hs
  · rw [Statement.quotedTexts_compile k.isPlain]
    exact hcompound c hc
  · have hplacement : k.dialect.supportsNullPlacement = true := by
      cases k <;> first | rfl | exact absurd rfl hk
    have hseparator : k.dialect.separatorClause = false := by
      cases k <;> first | rfl | exact absurd rfl hk
    refine ⟨fun e qualify => ?_, fun s => ?_, fun c => ?_⟩
    · rw [hexpr e qualify (e.isWrittenOnce hplacement),
        (e.emitted_pieces qualify).quotedTexts_eq_nil hseparator]
      rfl
    · rw [hselect s (s.isWrittenOnce hplacement), s.emitted_pieces.quotedTexts_eq_nil hseparator]
      rfl
    · rw [hcompound c (c.isWrittenOnce hplacement), c.emitted_pieces.quotedTexts_eq_nil hseparator]
      rfl

/-- The titles of the goods in stock, joined to one text. -/
def joinedTitles : Select :=
  { Select.ofTable stock with projections := [⟨.joinedText (.column stockTitle) ", ", none⟩] }

theorem isWrittenOnce_joinedTitles (k : DialectKind) : joinedTitles.IsWrittenOnce k.dialect := by
  have hcolumn : (Expr.column stockTitle).IsWrittenOnce k.dialect :=
    .intro trivial (List.forall_mem_nil _) (by rintro _ ⟨⟩)
  refine .intro (.inr (List.forall_mem_nil _)) (List.forall_mem_singleton.2 ?_)
  exact .intro trivial (List.forall_mem_singleton.2 hcolumn) (by rintro _ ⟨⟩)

theorem parameterCount_eq_length_joinedTitles :
    joinedTitles.IsWrittenOnce Dialect.mysql ∧
      1 = ((Statement.select joinedTitles).compile .mysql).parameters.length +
        (((Statement.select joinedTitles).compile .mysql).quotedTexts .mysql).length ∧
      1 = ((Statement.select joinedTitles).compile .postgres).parameters.length := by
  have honce := isWrittenOnce_joinedTitles .mysql
  refine ⟨honce, (parameterCount_eq_length .mysql).2.1 joinedTitles honce, ?_⟩
  exact ((parameterCount_eq_length .postgres).2.2.2 (by decide)).2.1 joinedTitles

/-- **The separator of a text aggregate is counted where it is not bound.** -/
theorem parameterCount_ne_length_joinedTitles :
    (Statement.select joinedTitles).Built {stock} ∧ joinedTitles.IsWrittenOnce Dialect.mysql ∧
      joinedTitles.parameterCount = 1 ∧
      ((Statement.select joinedTitles).compile .mysql).parameters = [] := by
  have htitle : stockTitle.IsOf {stock} := ⟨stock, rfl, .head _⟩
  have hjoined : (Expr.column stockTitle).stringAgg ", " =
      .ok (.joinedText (.column stockTitle) ", ") := rfl
  have hproject : (Select.ofTable stock).step
      (.project [.joinedText (.column stockTitle) ", "]) = .ok joinedTitles := rfl
  have hbuilt : joinedTitles.Built {stock} :=
    .step (.ofTable rfl) (List.forall_mem_singleton.2 (.stringAgg (.column htitle) hjoined))
      (List.forall_mem_nil _) (List.forall_mem_nil _) hproject
  exact ⟨.select hbuilt, isWrittenOnce_joinedTitles .mysql, rfl, rfl⟩

end TypedSql
