import TypedSql.Proofs.Clauses

/-!
# Expressions are read back

The text of an expression for PostgreSQL is read as that expression, whatever is nested in it. The
induction is on expressions and selects together, for readers of any depth that the tokens of the
expression do not exceed. An expression is read as a whole; as a negated condition, unless it is a
chain; and as something primary, if it is atomic (`Expr.ReadsIn`). These are the places where it
stands without parentheses.
-/

namespace TypedSql

open Reader
open Piece (phrase)

variable {qualify : Bool} {n : Nat}

/-! ### Expressions -/

namespace Expr

variable {e : Expr}

/-- An expression is read in the places where it stands without parentheses. -/
structure ReadsIn (qualify : Bool) (n : Nat) (e : Expr) : Prop where
  whole : e.ReadsBy (disjunction (readers n)) qualify
  condition : e.isJunction = false →
    ReadsAs (negated (readers n)) 5 (phrase (e.pieces .postgres qualify)) (e.reading qualify)
  atom : e.isAtomic = true →
    ReadsAs (primary (readers n)) 8 (phrase (e.pieces .postgres qualify)) (e.reading qualify)

/-- What is primary is read in every place. -/
theorem ReadsIn.of_primary
    (h : ReadsAs (primary (readers n)) 8 (phrase (e.pieces .postgres qualify))
      (e.reading qualify)) :
    e.ReadsIn qualify n :=
  have hcondition := h.condition
  ⟨hcondition.conjunction_single.disjunction_single, fun _ => hcondition, fun _ => h⟩

/-- What is a condition is read as a whole and as a condition. -/
theorem ReadsIn.of_negated (hatomic : e.isAtomic = false)
    (h : ReadsAs (negated (readers n)) 5 (phrase (e.pieces .postgres qualify))
      (e.reading qualify)) :
    e.ReadsIn qualify n :=
  ⟨h.conjunction_single.disjunction_single, fun _ => h, fun hatomic' =>
    absurd hatomic' (by simp [hatomic])⟩

/-- A chain is read as a whole alone. -/
theorem ReadsIn.of_disjunction (hjunction : e.isJunction = true) (hatomic : e.isAtomic = false)
    (h : e.ReadsBy (disjunction (readers n)) qualify) : e.ReadsIn qualify n :=
  ⟨h, fun hjunction' => absurd hjunction' (by simp [hjunction]), fun hatomic' =>
    absurd hatomic' (by simp [hatomic])⟩

/-- An expression is read by readers of any depth that its tokens do not exceed. -/
def Reads (e : Expr) : Prop :=
  ∀ qualify n, (phrase (e.pieces .postgres qualify)).length ≤ n + 1 → e.ReadsIn qualify n

namespace Reads

theorem length_pos (h : e.Reads) (qualify : Bool) :
    0 < (phrase (e.pieces .postgres qualify)).length := by
  refine List.length_pos_iff.2 fun hnil => ?_
  -- Nothing can be read from no tokens at all.
  have hread := (h qualify 0 (by simp [hnil])).whole [] (by simp [Stops])
  rw [hnil, List.nil_append, disjunction_eq_none (by rfl) (by simp)] at hread
  cases hread

/-- An expression is read one level deeper. -/
theorem deeper (h : e.Reads) (qualify : Bool) (n : Nat)
    (hlength : (phrase (e.pieces .postgres qualify)).length ≤ n) :
    e.ReadsBy (readers n).expr qualify := by
  have hpos := h.length_pos qualify
  obtain ⟨m, rfl⟩ : ∃ m, n = m + 1 := ⟨n - 1, by omega⟩
  exact (h qualify m hlength).whole

/-- Operands are primary, if need be by their parentheses. -/
theorem operand (h : e.Reads) (qualify : Bool) (n : Nat)
    (hlength : (phrase (Piece.enclosedIf (!e.isAtomic) (e.pieces .postgres qualify))).length ≤
      n + 1) :
    ReadsAs (primary (readers n)) 8
      (phrase (Piece.enclosedIf (!e.isAtomic) (e.pieces .postgres qualify)))
      (e.reading qualify) := by
  cases hatomic : e.isAtomic with
  | true =>
    simp only [hatomic, Piece.enclosedIf, Bool.not_true, Bool.false_eq_true, if_false] at hlength ⊢
    exact (h qualify n hlength).atom hatomic
  | false =>
    simp only [hatomic, Piece.enclosedIf, Bool.not_false, if_true, Piece.phrase_parenthesized,
      List.length_cons, List.length_append, List.length_nil] at hlength ⊢
    exact ReadsAs.parentheses ((h.deeper qualify n (by omega)).within (by decide))

/-- An operand of a comparison or of a predicate is a sum. -/
theorem summand (h : e.Reads) (qualify : Bool) (n : Nat)
    (hlength : (phrase (Piece.enclosedIf (!e.isAtomic) (e.pieces .postgres qualify))).length ≤
      n + 1) :
    ReadsAs (sum (readers n)) 6
      (phrase (Piece.enclosedIf (!e.isAtomic) (e.pieces .postgres qualify)))
      (e.reading qualify) :=
  (h.operand qualify n hlength).unary.product.sum

/-- Conditions of a chain are no chains, if need be by their parentheses. -/
theorem part (h : e.Reads) (qualify : Bool) (n : Nat)
    (hlength : (phrase (Piece.enclosedIf e.isJunction (e.pieces .postgres qualify))).length ≤
      n + 1) :
    ReadsAs (negated (readers n)) 5
      (phrase (Piece.enclosedIf e.isJunction (e.pieces .postgres qualify)))
      (e.reading qualify) := by
  cases hjunction : e.isJunction with
  | false =>
    simp only [hjunction, Piece.enclosedIf, Bool.false_eq_true, if_false] at hlength ⊢
    exact (h qualify n hlength).condition hjunction
  | true =>
    simp only [hjunction, Piece.enclosedIf, if_true, Piece.phrase_parenthesized,
      List.length_cons, List.length_append, List.length_nil] at hlength ⊢
    have hprimary := ReadsAs.parentheses (d := readers n)
      ((h.deeper qualify n (by omega)).within (by decide))
    exact hprimary.condition

end Reads

/-! ### Expressions without subqueries -/

theorem reads_column (c : Column) : (Expr.column c).Reads :=
  fun qualify _ _ => .of_primary (c.readsAs_primary qualify)

theorem reads_literal (v : Value) (type? : Option ColumnType) : (Expr.literal v type?).Reads :=
  fun _ _ _ => .of_primary fun _ _ => rfl

theorem reads_negation (h : e.Reads) : (Expr.negation e).Reads := by
  intro qualify n hlength
  have hminus : fixedTokens "-" = [.operator "-"] := by decide
  have htokens : phrase ((Expr.negation e).pieces .postgres qualify) = .operator "-" ::
      phrase (Piece.enclosedIf (!e.isAtomic) (e.pieces .postgres qualify)) := by
    simp [Expr.pieces, hminus]
  have hpos : 0 <
      (phrase (Piece.enclosedIf (!e.isAtomic) (e.pieces .postgres qualify))).length := by
    cases hatomic : e.isAtomic with
    | true => exact h.length_pos qualify
    | false => simp [Piece.enclosedIf, Piece.phrase_parenthesized]
  rw [htokens, List.length_cons] at hlength
  -- The minus sign pays for the level at which its operand is read.
  obtain ⟨m, rfl⟩ : ∃ m, n = m + 1 := ⟨n - 1, by omega⟩
  have hoperand := (h.operand qualify m (by omega)).unary
  refine .of_negated rfl ?_
  rw [htokens]
  exact (ReadsAs.negation (d := readers (m + 1)) hoperand).product.sum.comparison.negated

theorem reads_complement (h : e.Reads) : (Expr.complement e).Reads := by
  intro qualify n hlength
  have hnot : fixedTokens "NOT (" = [.word "NOT", .mark '('] := by decide
  have htokens : phrase ((Expr.complement e).pieces .postgres qualify) =
      .word "NOT" :: .mark '(' :: (phrase (e.pieces .postgres qualify) ++ [.mark ')']) := by
    simp [Expr.pieces, hnot]
  rw [htokens] at hlength
  simp only [List.length_cons, List.length_append, List.length_nil] at hlength
  obtain ⟨m, rfl⟩ : ∃ m, n = m + 1 := ⟨n - 1, by omega⟩
  have hprimary := ReadsAs.parentheses (d := readers m)
    ((h.deeper qualify m (by omega)).within (by decide))
  refine .of_negated rfl ?_
  rw [htokens]
  exact ReadsAs.complement (d := readers (m + 1)) hprimary.condition

theorem reads_nullTest (h : e.Reads) (isNegated : Bool) : (Expr.nullTest e isNegated).Reads := by
  intro qualify n hlength
  have htest : fixedTokens (if isNegated then " IS NOT NULL" else " IS NULL") =
      .word "IS" :: ((if isNegated then [.word "NOT"] else []) ++ [.word "NULL"]) := by
    cases isNegated <;> decide
  have htokens : phrase ((Expr.nullTest e isNegated).pieces .postgres qualify) =
      phrase (Piece.enclosedIf (!e.isAtomic) (e.pieces .postgres qualify)) ++
        .word "IS" :: ((if isNegated then [.word "NOT"] else []) ++ [.word "NULL"]) := by
    simp [Expr.pieces, htest]
  rw [htokens, List.length_append] at hlength
  have hoperand := h.summand qualify n (by omega)
  refine .of_negated rfl ?_
  rw [htokens]
  exact hoperand.nullTest.negated

theorem reads_binary {l r : Expr} (hl : l.Reads) (hr : r.Reads) (op : BinaryOp) :
    (Expr.binary l op r).Reads := by
  intro qualify n hlength
  have hpieces : (Expr.binary l op r).pieces .postgres qualify =
      Piece.enclosedIf (!l.isAtomic) (l.pieces .postgres qualify) ++ .text (" " ++ op.sql ++ " ") ::
        Piece.enclosedIf (!r.isAtomic) (r.pieces .postgres qualify) := by
    -- PostgreSQL ignores case itself, so no pattern is laid out by lower-cased operands.
    have hilike : Dialect.postgres.supportsIlike = true := rfl
    cases op <;> simp [Expr.pieces, BinaryOp.pieces, PatternMatch.pieces, BinaryOp.sql, hilike]
  rw [hpieces] at hlength
  simp only [Piece.phrase_append, Piece.phrase_cons_text, List.length_append] at hlength
  have hleft := (hl.operand qualify n (by omega)).unary
  have hright := (hr.operand qualify n (by omega)).unary
  refine .of_negated rfl ?_
  rw [hpieces, Piece.phrase_append, Piece.phrase_cons_text]
  cases op with
  | compare op =>
    have hop : fixedTokens (" " ++ (BinaryOp.compare op).sql ++ " ") = [.operator op.sql] := by
      cases op <;> decide
    rw [hop]
    exact (hleft.product.sum.compare op hright.product.sum).negated
  | pattern m =>
    have hop : fixedTokens (" " ++ (BinaryOp.pattern m).sql ++ " ") =
        negatable m.negated (if m.ignoresCase then "ILIKE" else "LIKE") := by
      obtain ⟨ignoresCase, isNegated⟩ := m
      cases ignoresCase <;> cases isNegated <;> decide
    rw [hop]
    exact (hleft.product.sum.pattern m hright.product.sum).negated
  | arithmetic op =>
    have hop : fixedTokens (" " ++ (BinaryOp.arithmetic op).sql ++ " ") = [.operator op.sql] := by
      cases op <;> decide
    rw [hop]
    have hsum : op ∈ [.add, .sub] → ReadsAs (Reader.sum (readers n)) 6 _ _ := fun hop =>
      ReadsAs.operation (by decide) hop hleft.product hright.product
    have hproduct : op ∈ [.mul, .div] → ReadsAs (Reader.product (readers n)) 7 _ _ := fun hop =>
      ReadsAs.operation (by decide) hop hleft hright
    cases op with
    | add | sub => exact (hsum (by decide)).comparison.negated
    | mul | div => exact (hproduct (by decide)).sum.comparison.negated

theorem reads_range {low high : Expr} (h : e.Reads) (hlow : low.Reads) (hhigh : high.Reads)
    (isNegated : Bool) : (Expr.range e low high isNegated).Reads := by
  intro qualify n hlength
  have hbetween : fixedTokens (if isNegated then " NOT BETWEEN " else " BETWEEN ") =
      negatable isNegated "BETWEEN" := by
    cases isNegated <;> decide
  have hand : fixedTokens " AND " = [.word "AND"] := by decide
  have htokens : phrase ((Expr.range e low high isNegated).pieces .postgres qualify) =
      phrase (Piece.enclosedIf (!e.isAtomic) (e.pieces .postgres qualify)) ++
        (negatable isNegated "BETWEEN" ++
          (phrase (Piece.enclosedIf (!low.isAtomic) (low.pieces .postgres qualify)) ++
            .word "AND" ::
              phrase (Piece.enclosedIf (!high.isAtomic) (high.pieces .postgres qualify)))) := by
    simp [Expr.pieces, hbetween, hand]
  rw [htokens] at hlength
  simp only [List.length_append, List.length_cons] at hlength
  have hsubject := h.summand qualify n (by omega)
  have hlow := hlow.summand qualify n (by omega)
  have hhigh := hhigh.summand qualify n (by omega)
  refine .of_negated rfl ?_
  rw [htokens]
  exact (hsubject.range hlow hhigh).negated

/-! ### Truth values and chains -/

theorem readsAs_truth (b : Bool) :
    ReadsAs (primary d) 8 (phrase [.text (Dialect.postgres.booleanLiteral b)]) (.truth b) := by
  have htrue : fixedTokens "TRUE" = [.word "TRUE"] := by decide
  have hfalse : fixedTokens "FALSE" = [.word "FALSE"] := by decide
  intro rest hrest
  cases b <;> simp [Dialect.postgres, htrue, hfalse, primary]

theorem reads_junction {parts : List Expr} (h : ∀ c ∈ parts, c.Reads) (kind : Connective) :
    (Expr.junction kind parts).Reads := by
  intro qualify n hlength
  cases parts with
  | nil =>
    have hpieces : (Expr.junction kind []).pieces .postgres qualify =
        [.text (Dialect.postgres.booleanLiteral kind.unit)] := by
      simp [Expr.pieces]
    refine .of_primary ?_
    rw [hpieces]
    exact readsAs_truth kind.unit
  | cons part parts =>
    have hpieces : (Expr.junction kind (part :: parts)).pieces .postgres qualify =
        Piece.separated (" " ++ kind.sql ++ " ") ((part :: parts).map fun c =>
          Piece.enclosedIf c.isJunction (c.pieces .postgres qualify)) := by
      simp [Expr.pieces, partPieces_eq, partPieces]
    have hreading : (Expr.junction kind (part :: parts)).reading qualify =
        .chained kind ((part :: parts).map (Expr.reading qualify)) := by
      simp [Expr.reading, readingsOf_eq]
    rw [hpieces] at hlength
    have hparts : ∀ c ∈ part :: parts, ReadsAs (negated (readers n)) 5
        (phrase (Piece.enclosedIf c.isJunction (c.pieces .postgres qualify)))
        (c.reading qualify) := by
      intro c hc
      have hle := length_phrase_le_separated (" " ++ kind.sql ++ " ")
        (fun c => Piece.enclosedIf c.isJunction (c.pieces .postgres qualify)) hc
      exact (h c hc).part qualify n (by omega)
    refine .of_disjunction rfl rfl ?_
    rw [Expr.ReadsBy, hpieces, hreading]
    cases kind with
    | and =>
      have hand : fixedTokens (" " ++ Connective.and.sql ++ " ") = [.word "AND"] := by decide
      exact (readsAs_separated hand (by simp) hparts).conjunction.disjunction_single
    | or =>
      have hor : fixedTokens (" " ++ Connective.or.sql ++ " ") = [.word "OR"] := by decide
      -- Between `OR` stand chains with `AND`, here of one condition each.
      have hconjunctions := fun c hc => (hparts c hc).conjunction_single
      exact (readsAs_separated hor (by simp) hconjunctions).disjunction

/-! ### Calls -/

theorem phrase_callPieces (f : SqlFunction) (arguments : List Piece) :
    phrase (callPieces .postgres f arguments) =
      .word f.name :: .mark '(' :: (phrase arguments ++ [.mark ')']) := by
  have hname : fixedTokens (Dialect.postgres.functionName f) = [.word f.name] := by
    cases f <;> decide
  simp [callPieces, hname]

theorem reads_rowCount : Expr.rowCount.Reads := by
  intro qualify n _
  have hstar : fixedTokens "*" = [.operator "*"] := by decide
  have hwithin : ReadsWithin (arguments (readers n) .count) (phrase [.text "*"]) .rowCount := by
    intro rest
    simp [hstar, arguments, expect]
  refine .of_primary ?_
  rw [Expr.pieces, phrase_callPieces]
  exact ReadsAs.call .count hwithin

/-- The arguments of a call are whole expressions between commas. -/
theorem reads_call (f : SqlFunction) (distinct : Bool) {arguments : List Expr}
    (hne : arguments ≠ []) (h : ∀ c ∈ arguments, c.Reads)
    (hpieces : ∀ qualify, e.pieces .postgres qualify =
      callPieces .postgres f ((if distinct then [.text "DISTINCT "] else []) ++
        Piece.commaSeparated (arguments.map (Expr.pieces .postgres qualify))))
    (hreading : ∀ qualify, e.reading qualify =
      .call f distinct (arguments.map (Expr.reading qualify))) :
    e.Reads := by
  intro qualify n hlength
  have hdistinct : phrase (if distinct then [.text "DISTINCT "] else []) =
      if distinct then [.word "DISTINCT"] else [] := by
    cases distinct <;> decide
  rw [hpieces, phrase_callPieces] at hlength
  simp only [Piece.phrase_append, List.length_cons, List.length_append] at hlength
  have harguments : ∀ c ∈ arguments, c.ReadsBy (readers n).expr qualify := by
    intro c hc
    have hle := length_phrase_le_separated ", " (Expr.pieces .postgres qualify) hc
    rw [← Piece.commaSeparated] at hle
    exact (h c hc).deeper qualify n (by omega)
  have hlist := readsAs_commaSeparated hne fun c hc => (harguments c hc).mono (by decide)
  refine .of_primary ?_
  rw [hpieces, hreading, phrase_callPieces, Piece.phrase_append, hdistinct]
  exact ReadsAs.call f ((hlist.within (by decide)).arguments distinct)

theorem reads_valueCount (h : e.Reads) (distinct : Bool) : (Expr.valueCount distinct e).Reads :=
  reads_call .count distinct (List.cons_ne_nil e []) (List.forall_mem_singleton.2 h)
    (fun _ => rfl) fun _ => rfl

theorem reads_apply (h : e.Reads) (f : UnaryFunction) : (Expr.apply f e).Reads :=
  reads_call f.function false (List.cons_ne_nil e []) (List.forall_mem_singleton.2 h)
    (fun _ => rfl) fun _ => rfl

theorem reads_orElse {fallback : Expr} (h : e.Reads) (hfallback : fallback.Reads) :
    (Expr.orElse e fallback).Reads :=
  reads_call .coalesce false (List.cons_ne_nil e [fallback])
    (List.forall_mem_cons.2 ⟨h, List.forall_mem_singleton.2 hfallback⟩) (fun _ => rfl) fun _ => rfl

theorem reads_extremum {first second : Expr} {rest : List Expr} (f : Extremum)
    (h : ∀ c ∈ first :: second :: rest, c.Reads) : (Expr.extremum f first second rest).Reads :=
  reads_call f.function false (List.cons_ne_nil first (second :: rest)) h
    (fun qualify => by simp [Expr.pieces, itemPieces_eq])
    (fun qualify => by simp [Expr.reading, readingsOf_eq])

theorem reads_joinedText (h : e.Reads) (separator : String) : (Expr.joinedText e separator).Reads :=
  reads_call .stringAgg false (List.cons_ne_nil e [.literal (.text separator) none])
    (List.forall_mem_cons.2 ⟨h, List.forall_mem_singleton.2 (reads_literal _ _)⟩)
    (fun _ => rfl) fun _ => rfl

/-! ### Memberships and subqueries -/

theorem fixedTokens_membershipText (isNegated : Bool) :
    fixedTokens (membershipText isNegated) = negatable isNegated "IN" ++ [.mark '('] := by
  cases isNegated <;> decide

theorem reads_listMembership {items : List Expr} (h : e.Reads) (hitems : ∀ c ∈ items, c.Reads)
    (isNegated : Bool) : (Expr.listMembership e items isNegated).Reads := by
  intro qualify n hlength
  cases items with
  | nil =>
    have hpieces : (Expr.listMembership e [] isNegated).pieces .postgres qualify =
        [.text (Dialect.postgres.booleanLiteral isNegated)] := by
      simp [Expr.pieces]
    refine .of_primary ?_
    rw [hpieces]
    exact readsAs_truth isNegated
  | cons item items =>
    have htokens : phrase ((Expr.listMembership e (item :: items) isNegated).pieces .postgres
        qualify) =
          phrase (Piece.enclosedIf (!e.isAtomic) (e.pieces .postgres qualify)) ++
            (negatable isNegated "IN" ++ .mark '(' ::
              (phrase (Piece.commaSeparated
                ((item :: items).map (Expr.pieces .postgres qualify))) ++ [.mark ')'])) := by
      simp [Expr.pieces, itemPieces_eq, fixedTokens_membershipText]
    have hreading : (Expr.listMembership e (item :: items) isNegated).reading qualify =
        .listMembership (e.reading qualify) ((item :: items).map (Expr.reading qualify))
          isNegated := by
      simp [Expr.reading, readingsOf_eq]
    rw [htokens] at hlength
    simp only [List.length_append, List.length_cons] at hlength
    have hread : ∀ c ∈ item :: items, c.ReadsBy (readers n).expr qualify := by
      intro c hc
      have hle := length_phrase_le_separated ", " (Expr.pieces .postgres qualify) hc
      rw [← Piece.commaSeparated] at hle
      exact (hitems c hc).deeper qualify n (by omega)
    have hlist := readsAs_commaSeparated (by simp) fun c hc => (hread c hc).mono (by decide)
    have hsubject := h.summand qualify n (by omega)
    refine .of_negated rfl ?_
    rw [htokens, hreading]
    exact (hsubject.membership (hlist.within (by decide)).listMembers).negated

end Expr

/-- A select is read before a closing parenthesis by readers of any depth that its tokens do not
exceed. -/
def Select.Reads (s : Select) : Prop :=
  ∀ n, (phrase (s.pieces .postgres)).length ≤ n + 1 →
    ReadsWithin (select (readers n)) (phrase (s.pieces .postgres)) s.reading

/-- A select is read one level deeper. -/
theorem Select.Reads.deeper {s : Select} (h : s.Reads) (n : Nat)
    (hlength : (phrase (s.pieces .postgres)).length ≤ n) :
    ReadsWithin (readers n).select (phrase (s.pieces .postgres)) s.reading := by
  obtain ⟨m, rfl⟩ : ∃ m, n = m + 1 := by
    rw [Select.phrase_pieces, List.length_cons] at hlength
    exact ⟨n - 1, by omega⟩
  exact h m hlength

namespace Expr

variable {e : Expr} {query : Select}

theorem reads_rowMembership (h : e.Reads) (hquery : query.Reads) (isNegated : Bool) :
    (Expr.rowMembership e query isNegated).Reads := by
  intro qualify n hlength
  have htokens : phrase ((Expr.rowMembership e query isNegated).pieces .postgres qualify) =
      phrase (Piece.enclosedIf (!e.isAtomic) (e.pieces .postgres qualify)) ++
        (negatable isNegated "IN" ++ .mark '(' ::
          (phrase (query.pieces .postgres) ++ [.mark ')'])) := by
    simp [Expr.pieces, fixedTokens_membershipText]
  rw [htokens] at hlength
  simp only [List.length_append, List.length_cons] at hlength
  have hsubject := h.summand qualify n (by omega)
  have hrows := hquery.deeper n (by omega)
  refine .of_negated rfl ?_
  rw [htokens]
  -- The keyword of the subquery tells its rows from a list.
  rw [Select.phrase_pieces] at hrows ⊢
  exact (hsubject.membership hrows.rowMembers).negated

theorem reads_existence (hquery : query.Reads) (isNegated : Bool) :
    (Expr.existence query isNegated).Reads := by
  intro qualify n hlength
  have hexists : fixedTokens "EXISTS (" = [.word "EXISTS", .mark '('] := by decide
  have hnot : fixedTokens "NOT EXISTS (" = [.word "NOT", .word "EXISTS", .mark '('] := by decide
  cases isNegated with
  | false =>
    have htokens : phrase ((Expr.existence query false).pieces .postgres qualify) =
        .word "EXISTS" :: .mark '(' :: (phrase (query.pieces .postgres) ++ [.mark ')']) := by
      simp [Expr.pieces, hexists]
    rw [htokens] at hlength
    simp only [List.length_append, List.length_cons] at hlength
    refine .of_primary ?_
    rw [htokens]
    exact ReadsAs.existence (hquery.deeper n (by omega))
  | true =>
    have htokens : phrase ((Expr.existence query true).pieces .postgres qualify) =
        .word "NOT" :: .word "EXISTS" :: .mark '(' ::
          (phrase (query.pieces .postgres) ++ [.mark ')']) := by
      simp [Expr.pieces, hnot]
    rw [htokens] at hlength
    simp only [List.length_append, List.length_cons] at hlength
    refine .of_negated rfl ?_
    rw [htokens]
    exact ReadsAs.negated_existence (hquery.deeper n (by omega))

theorem reads_quantified (h : e.Reads) (hquery : query.Reads) (op : Comparison)
    (quantifier : Quantifier) : (Expr.quantified e op quantifier query).Reads := by
  intro qualify n hlength
  have hopening : fixedTokens (" " ++ op.sql ++ " " ++ quantifier.sql ++ " (") =
      [.operator op.sql, .word quantifier.sql, .mark '('] := by
    cases op <;> cases quantifier <;> decide
  have hsupports : Dialect.postgres.supportsQuantified = true := rfl
  have htokens : phrase ((Expr.quantified e op quantifier query).pieces .postgres qualify) =
      phrase (Piece.enclosedIf (!e.isAtomic) (e.pieces .postgres qualify)) ++
        .operator op.sql :: .word quantifier.sql :: .mark '(' ::
          (phrase (query.pieces .postgres) ++ [.mark ')']) := by
    simp [Expr.pieces, Quantifier.opening, hsupports, hopening]
  rw [htokens] at hlength
  simp only [List.length_append, List.length_cons] at hlength
  have hsubject := h.summand qualify n (by omega)
  refine .of_negated rfl ?_
  rw [htokens]
  exact (hsubject.quantified op quantifier (hquery.deeper n (by omega))).negated

/-- An expression is read if its parts and its subquery are. -/
theorem reads_of_parts (e : Expr) (h : ∀ c ∈ e.children, c.Reads)
    (hquery : ∀ s, e.query? = some s → s.Reads) : e.Reads := by
  cases e with
  | column c => exact reads_column c
  | literal v type? => exact reads_literal v type?
  | negation e => exact reads_negation (h e (by simp [children]))
  | complement e => exact reads_complement (h e (by simp [children]))
  | nullTest e isNegated => exact reads_nullTest (h e (by simp [children])) isNegated
  | binary l op r =>
    exact reads_binary (h l (by simp [children])) (h r (by simp [children])) op
  | junction kind parts => exact reads_junction h kind
  | rowCount => exact reads_rowCount
  | valueCount distinct e => exact reads_valueCount (h e (by simp [children])) distinct
  | apply f e => exact reads_apply (h e (by simp [children])) f
  | orElse e fallback =>
    exact reads_orElse (h e (by simp [children])) (h fallback (by simp [children]))
  | extremum f first second rest => exact reads_extremum f h
  | joinedText e separator => exact reads_joinedText (h e (by simp [children])) separator
  | listMembership e items isNegated =>
    exact reads_listMembership (h e (by simp [children]))
      (fun c hc => h c (List.mem_cons_of_mem _ hc)) isNegated
  | rowMembership e query isNegated =>
    exact reads_rowMembership (h e (by simp [children])) (hquery query rfl) isNegated
  | range e low high isNegated =>
    exact reads_range (h e (by simp [children])) (h low (by simp [children]))
      (h high (by simp [children])) isNegated
  | existence query isNegated => exact reads_existence (hquery query rfl) isNegated
  | quantified e op quantifier query =>
    exact reads_quantified (h e (by simp [children])) (hquery query rfl) op quantifier

end Expr

/-- A select is read if the expressions of its clauses are. -/
theorem Select.reads_of_clauses (s : Select) (h : ∀ e ∈ s.clauseExprs, e.Reads) : s.Reads := by
  intro n hlength
  have hclauses : ∀ e ∈ s.clauseExprs, e.ReadsBy (readers n).expr s.qualifies := fun e he =>
    (h e he).deeper s.qualifies n
      (Nat.le_of_lt_succ (Nat.lt_of_lt_of_le (s.length_phrase_lt e he) hlength))
  obtain ⟨m, rfl⟩ : ∃ m, n = m + 1 := by
    rw [Select.phrase_pieces] at hlength
    simp only [List.length_cons, List.length_append] at hlength
    exact ⟨n - 1, by omega⟩
  have hcolumn : ∀ c, (Expr.column c).ReadsBy (readers (m + 1)).expr s.qualifies := fun c =>
    (Expr.ReadsIn.of_primary (e := .column c) (n := m) (c.readsAs_primary s.qualifies)).whole
  exact Select.readsWithin_select hclauses hcolumn (readers_expr_eq_none (m + 1) (by decide))

theorem Expr.reads (e : Expr) : e.Reads :=
  Expr.induction (P := Expr.Reads) (Q := Select.Reads) Expr.reads_of_parts
    Select.reads_of_clauses e

/--
**An expression is read back from its text.** The text for PostgreSQL, with or without qualified
columns, is read to its end, with the parameters in place of their placeholders, and the result is
the expression as it can be read: `Expr.reading` says what is not written and cannot be read.
-/
theorem Expr.readExpr_sql (e : Expr) (qualify : Bool) :
    readExpr (Piece.sql .postgres (e.pieces .postgres qualify))
        (Piece.parameters (e.pieces .postgres qualify)) =
      some (e.reading qualify) := by
  have htidy := e.tidy_pieces Dialect.isPlain_postgres qualify
  have hlex : lex '"' (Piece.sql .postgres (e.pieces .postgres qualify)) =
      Piece.tokens .postgres 1 (e.pieces .postgres qualify) :=
    Piece.lex_sql Dialect.isPlain_postgres htidy
  have hbind : (Piece.tokens .postgres 1 (e.pieces .postgres qualify)).mapM
      (Token.bind (Piece.parameters (e.pieces .postgres qualify))) =
        some (phrase (e.pieces .postgres qualify)) :=
    Piece.mapM_bind_tokens Dialect.isPlain_postgres rfl rfl htidy []
  have hread := e.reads.deeper qualify _ (Nat.le_refl _) [] (by simp [Stops])
  rw [List.append_nil] at hread
  simp [readExpr, hlex, hbind, hread]

/-- The first `AND` belongs to the range, the second one is a chain. -/
example :
    readExpr "\"a\" BETWEEN $1 AND $2 AND NOT (\"b\")" [.text "x", .text "y"] =
      some (.junction .and
        [.range (.column none "a") (.value (.text "x")) (.value (.text "y")) false,
          .complement (.column none "b")]) := by
  rfl

end TypedSql
