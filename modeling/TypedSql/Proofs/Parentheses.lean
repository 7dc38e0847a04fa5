import TypedSql.Proofs.Quoting

/-!
# What stands outside parentheses

In the text of a statement, commas and the keywords of a select may belong to the statement or to
something inside parentheses: the arguments of a call, the items of a list, a subquery.
`outsideFrom` drops what stands in parentheses, so that only the tokens of the outermost level are
left. `Shows` says of some tokens that their parentheses match and what they leave.

`Expr.avoids_breaks_of_parts` says of every node of an expression that its parentheses match, and
that it adds no comma outside of them and none of the words that end a list of result columns or
start the clauses of an order and of limits.
-/

namespace TypedSql

/-- The tokens outside of parentheses, of which so many are open before the first token. -/
def outsideFrom : Nat → List (Token Nat) → List (Token Nat)
  | _, [] => []
  | n, t :: ts =>
    if t = .mark '(' then outsideFrom (n + 1) ts
    else if t = .mark ')' then outsideFrom (n - 1) ts
    else if n = 0 then t :: outsideFrom n ts
    else outsideFrom n ts

/-- The parentheses of some tokens match, and outside of them there are some others. -/
structure Shows (ts out : List (Token Nat)) : Prop where
  outside : ∀ us, outsideFrom 0 (ts ++ us) = out ++ outsideFrom 0 us
  inside : ∀ n us, outsideFrom (n + 1) (ts ++ us) = outsideFrom (n + 1) us

/-- The parentheses. -/
def parentheses : List (Token Nat) :=
  [.mark '(', .mark ')']

/-- The words that start the clauses of an order and of limits. -/
def pagingWords : List (Token Nat) :=
  [.word "ORDER", .word "LIMIT", .word "OFFSET"]

/-- What a result column does not have outside of parentheses. -/
def breaks : List (Token Nat) :=
  .mark ',' :: .word "FROM" :: pagingWords

section Shows

variable {ts us out out' : List (Token Nat)}

theorem Shows.nil : Shows [] [] :=
  ⟨fun _ => rfl, fun _ _ => rfl⟩

theorem Shows.append (h : Shows ts out) (h' : Shows us out') : Shows (ts ++ us) (out ++ out') := by
  constructor
  · intro vs
    rw [List.append_assoc, h.outside, h'.outside, List.append_assoc]
  · intro n vs
    rw [List.append_assoc, h.inside, h'.inside]

/-- Tokens that are no parentheses are all outside. -/
theorem Shows.self (h : ∀ t ∈ ts, t ∉ parentheses) : Shows ts ts := by
  induction ts with
  | nil => exact .nil
  | cons t ts ih =>
    obtain ⟨ht, hts⟩ := List.forall_mem_cons.1 h
    have hrest := ih hts
    simp only [parentheses, List.mem_cons, List.not_mem_nil, or_false, not_or] at ht
    constructor
    · intro us
      simp [outsideFrom, ht, hrest.outside]
    · intro n us
      simp [outsideFrom, ht, hrest.inside]

/-- Nothing in parentheses is outside. -/
theorem Shows.parenthesized (h : Shows ts out) :
    Shows (.mark '(' :: ts ++ [.mark ')']) [] := by
  constructor
  · intro us
    simp [outsideFrom, h.inside]
  · intro n us
    simp [outsideFrom, h.inside]

theorem Shows.outsideFrom_zero (h : Shows ts out) : outsideFrom 0 ts = out := by
  simpa [outsideFrom] using h.outside []

end Shows

/-! ### Pieces that avoid tokens -/

namespace Piece

/-- The parentheses of pieces match, and outside of them there are none of some tokens. -/
def Avoids (k : DialectKind) (ws : List (Token Nat)) (ps : List Piece) : Prop :=
  ∀ n, ∃ out, Shows (tokens k.dialect n ps) out ∧ ∀ t ∈ out, t ∉ ws

/-- A text without parentheses that has none of some tokens. -/
def IsFree (k : DialectKind) (ws : List (Token Nat)) (s : String) : Prop :=
  ∀ t ∈ lex k.dialect.identifierQuote s, t ∉ parentheses ++ ws

instance (k : DialectKind) (ws : List (Token Nat)) (s : String) : Decidable (IsFree k ws s) :=
  inferInstanceAs (Decidable (∀ t ∈ lex k.dialect.identifierQuote s, t ∉ parentheses ++ ws))

/-- A text that has none of some tokens before it opens a parenthesis at its end. -/
def IsOpening (k : DialectKind) (ws : List (Token Nat)) (s : String) : Prop :=
  (lex k.dialect.identifierQuote s).getLast? = some (.mark '(') ∧
    ∀ t ∈ (lex k.dialect.identifierQuote s).dropLast, t ∉ parentheses ++ ws

instance (k : DialectKind) (ws : List (Token Nat)) (s : String) : Decidable (IsOpening k ws s) :=
  inferInstanceAs (Decidable (_ ∧ ∀ t ∈ (lex k.dialect.identifierQuote s).dropLast,
    t ∉ parentheses ++ ws))

section Avoids

variable {k : DialectKind} {ws : List (Token Nat)} {ps qs : List Piece} {s : String}

theorem Avoids.mono {ws' : List (Token Nat)} (h : Avoids k ws ps) (hws : ws' ⊆ ws) :
    Avoids k ws' ps := by
  intro n
  obtain ⟨out, hshows, hout⟩ := h n
  exact ⟨out, hshows, fun t ht hmem => hout t ht (hws hmem)⟩

theorem Avoids.nil : Avoids k ws [] :=
  fun _ => ⟨[], .nil, List.forall_mem_nil _⟩

theorem Avoids.append (hps : Avoids k ws ps) (hqs : Avoids k ws qs) : Avoids k ws (ps ++ qs) := by
  intro n
  obtain ⟨out, hshows, hout⟩ := hps n
  obtain ⟨out', hshows', hout'⟩ := hqs (n + (parameters ps).length)
  refine ⟨out ++ out', ?_, List.forall_mem_append.2 ⟨hout, hout'⟩⟩
  rw [tokens_append]
  exact hshows.append hshows'

theorem shows_text (h : IsFree k ws s) (n : Nat) :
    Shows (tokens k.dialect n [.text s]) (lex k.dialect.identifierQuote s) := by
  rw [tokens, tokens, List.append_nil]
  exact .self fun t ht hmem => h t ht (List.mem_append_left _ hmem)

theorem Avoids.text (h : IsFree k ws s) : Avoids k ws [.text s] :=
  fun n => ⟨_, shows_text h n, fun t ht hmem => h t ht (List.mem_append_right _ hmem)⟩

theorem Avoids.text_cons (h : IsFree k ws s) (hps : Avoids k ws ps) :
    Avoids k ws (.text s :: ps) :=
  (Avoids.text h).append hps

theorem Avoids.notice_cons (n : Notice) (hps : Avoids k ws ps) : Avoids k ws (.notice n :: ps) :=
  fun m => hps m

theorem tokens_close (n : Nat) : tokens k.dialect n [.text ")"] = [.mark ')'] := by
  have hlex : lex k.dialect.identifierQuote ")" = [.mark ')'] := by
    cases k <;> decide
  rw [tokens, tokens, hlex, List.append_nil]

/-- After a text that opens a parenthesis, pieces are inside until it is closed. -/
theorem Avoids.enclosed (h : IsOpening k ws s) (hps : Avoids k [] ps) :
    Avoids k ws (.text s :: ps ++ [.text ")"]) := by
  obtain ⟨before, hbefore, hlex⟩ : ∃ before, (∀ t ∈ before, t ∉ parentheses ++ ws) ∧
      lex k.dialect.identifierQuote s = before ++ [.mark '('] :=
    ⟨_, h.2, (List.dropLast_append_getLast? _ h.1).symm⟩
  intro n
  obtain ⟨out, hshows, -⟩ := hps n
  refine ⟨before ++ [], ?_, ?_⟩
  · rw [List.cons_append, tokens, tokens_append, tokens_close, hlex, List.append_assoc]
    exact .append (.self fun t ht hmem => hbefore t ht (List.mem_append_left _ hmem))
      hshows.parenthesized
  · rw [List.append_nil]
    exact fun t ht hmem => hbefore t ht (List.mem_append_right _ hmem)

theorem Avoids.flatMap {α : Type} {items : List α} {layout : α → List Piece}
    (h : ∀ a ∈ items, Avoids k ws (layout a)) : Avoids k ws (items.flatMap layout) := by
  induction items with
  | nil => exact .nil
  | cons a items ih =>
    obtain ⟨ha, hitems⟩ := List.forall_mem_cons.1 h
    rw [List.flatMap_cons]
    exact ha.append (ih hitems)

theorem Avoids.separated (hs : IsFree k ws s) {items : List (List Piece)}
    (h : ∀ ps ∈ items, Avoids k ws ps) : Avoids k ws (Piece.separated s items) := by
  fun_induction Piece.separated s items with
  | case1 => exact .nil
  | case2 ps => exact h ps (by simp)
  | case3 ps qs rest ih =>
    obtain ⟨hps, hrest⟩ := List.forall_mem_cons.1 h
    exact hps.append (.text_cons hs (ih hrest))

/-- Pieces with commas between them have matching parentheses. -/
theorem Avoids.commaSeparated {items : List (List Piece)} (h : ∀ ps ∈ items, Avoids k [] ps) :
    Avoids k [] (Piece.commaSeparated items) :=
  .separated (by cases k <;> decide) h

end Avoids

/-! ### The parts of an expression -/

/-- Fixed texts of expressions and of clauses without commas that have no parentheses. -/
def calmTexts : List String :=
  [".", " AS ", "-", "*", " IS NULL", " IS NOT NULL", " BETWEEN ", " NOT BETWEEN ", " AND ",
    " SEPARATOR ", "DISTINCT ", " ON ", " WHERE ", " HAVING ", " CROSS JOIN "]

/-- Fixed texts of expressions that open a parenthesis. -/
def openingTexts : List String :=
  ["(", "NOT (", "LOWER(", " LIKE LOWER(", " NOT LIKE LOWER(", " IN (", " NOT IN (", "EXISTS (",
    "NOT EXISTS ("]

section Parts

variable {k : DialectKind} {ps qs : List Piece} {s : String}

theorem isFree_of_mem (h : s ∈ calmTexts) : IsFree k breaks s := by
  have hall : ∀ s ∈ calmTexts, IsFree k breaks s := by
    cases k <;> decide
  exact hall s h

theorem isOpening_of_mem (h : s ∈ openingTexts) : IsOpening k breaks s := by
  have hall : ∀ s ∈ openingTexts, IsOpening k breaks s := by
    cases k <;> decide
  exact hall s h

theorem isFree_binary (op : BinaryOp) : IsFree k breaks (" " ++ op.sql ++ " ") := by
  rcases op with op | ⟨ignoresCase, negated⟩ | op
  · cases k <;> cases op <;> decide
  · cases k <;> cases ignoresCase <;> cases negated <;> decide
  · cases k <;> cases op <;> decide

theorem isFree_connective (kind : Connective) : IsFree k breaks (" " ++ kind.sql ++ " ") := by
  cases k <;> cases kind <;> decide

theorem isFree_truthValue (b : Bool) : IsFree k breaks (k.dialect.booleanLiteral b) := by
  cases k <;> cases b <;> decide

theorem isFree_functionName (f : SqlFunction) : IsFree k breaks (k.dialect.functionName f) := by
  cases k <;> cases f <;> decide

theorem isOpening_quantified (op : Comparison) (quantifier : Quantifier) :
    IsOpening k breaks (" " ++ op.sql ++ " " ++ quantifier.sql ++ " (") := by
  cases k <;> cases op <;> cases quantifier <;> decide

theorem isOpening_membershipText (negated : Bool) :
    IsOpening k breaks (membershipText negated) := by
  cases negated
  · exact isOpening_of_mem (by decide)
  · exact isOpening_of_mem (by decide)

theorem avoids_token {p : Piece} {t : Nat → Token Nat}
    (hp : ∀ n, tokens k.dialect n [p] = [t n]) (ht : ∀ n, t n ∉ parentheses ++ breaks) :
    Avoids k breaks [p] := by
  intro n
  obtain ⟨hparenthesis, hbreak⟩ := not_or.1 (List.mem_append.not.1 (ht n))
  refine ⟨[t n], ?_, List.forall_mem_singleton.2 hbreak⟩
  rw [hp n]
  exact .self (List.forall_mem_singleton.2 hparenthesis)

theorem avoids_identifier (name : String) : Avoids k breaks [.identifier name] :=
  avoids_token (t := fun _ => .identifier name) (fun _ => rfl) fun _ => by
    simp [parentheses, breaks, pagingWords]

theorem avoids_parameter (v : Value) : Avoids k breaks [.parameter v] := by
  refine avoids_token (t := k.dialect.placeholderStyle.token) (fun _ => rfl) fun _ => ?_
  cases k.dialect.placeholderStyle <;>
    simp [PlaceholderStyle.token, parentheses, breaks, pagingWords]

theorem avoids_quotedText (s : String) : Avoids k breaks [.quotedText s] :=
  avoids_token (t := fun _ => .quotedText s) (fun _ => rfl) fun _ => by
    simp [parentheses, breaks, pagingWords]

/-- What has no breaks outside of its parentheses has matching parentheses. -/
theorem Avoids.closed (h : Avoids k breaks ps) : Avoids k [] ps :=
  h.mono (List.nil_subset breaks)

theorem Avoids.enclosedIf (b : Bool) (h : Avoids k breaks ps) :
    Avoids k breaks (Piece.enclosedIf b ps) := by
  cases b
  · exact h
  · exact .enclosed (isOpening_of_mem (by decide)) h.closed

theorem Avoids.callPieces (f : SqlFunction) (h : Avoids k [] ps) :
    Avoids k breaks (callPieces k.dialect f ps) :=
  .text_cons (isFree_functionName f) (.enclosed (isOpening_of_mem (by decide)) h)

theorem avoids_columnPieces (qualify : Bool) (c : Column) :
    Avoids k breaks (c.pieces qualify) := by
  cases qualify
  · exact avoids_identifier _
  · exact (avoids_identifier _).append
      (.text_cons (isFree_of_mem (by decide)) (avoids_identifier _))

theorem avoids_sourcePieces (t : Table) : Avoids k breaks t.sourcePieces := by
  unfold Table.sourcePieces Table.namePieces
  refine .append ?_ ?_
  · split
    · exact (avoids_identifier _).append
        (.text_cons (isFree_of_mem (by decide)) (avoids_identifier _))
    · exact avoids_identifier _
  · split
    · exact .text_cons (isFree_of_mem (by decide)) (avoids_identifier _)
    · exact .nil

/-- Lower-cased operands are two calls with an operator between them. -/
theorem avoids_lowered (negated : Bool) (hps : Avoids k breaks ps) (hqs : Avoids k breaks qs) :
    Avoids k breaks (.text "LOWER(" :: ps ++
      .text (if negated then ") NOT LIKE LOWER(" else ") LIKE LOWER(") :: qs ++ [.text ")"]) := by
  have hsplit : ∀ n, tokens k.dialect n (.text "LOWER(" :: ps ++
        .text (if negated then ") NOT LIKE LOWER(" else ") LIKE LOWER(") :: qs ++ [.text ")"]) =
      tokens k.dialect n ((.text "LOWER(" :: ps ++ [.text ")"]) ++
        (.text (if negated then " NOT LIKE LOWER(" else " LIKE LOWER(") :: qs ++ [.text ")"])) := by
    have hlex : lex k.dialect.identifierQuote
          (if negated then ") NOT LIKE LOWER(" else ") LIKE LOWER(") =
        lex k.dialect.identifierQuote ")" ++ lex k.dialect.identifierQuote
          (if negated then " NOT LIKE LOWER(" else " LIKE LOWER(") := by
      cases k <;> cases negated <;> decide
    intro n
    simp [tokens, tokens_append, hlex, parameters, parameter?]
  have hopening : IsOpening k breaks (if negated then " NOT LIKE LOWER(" else " LIKE LOWER(") := by
    cases negated
    · exact isOpening_of_mem (by decide)
    · exact isOpening_of_mem (by decide)
  intro n
  rw [hsplit]
  exact ((Avoids.enclosed (isOpening_of_mem (by decide)) hps.closed).append
    (.enclosed hopening hqs.closed)) n

theorem avoids_binaryPieces {op : BinaryOp} {l r : Expr} (hps : Avoids k breaks ps)
    (hqs : Avoids k breaks qs) : Avoids k breaks (op.pieces k.dialect l r ps qs) := by
  have hplain : Avoids k breaks (Piece.enclosedIf (!l.isAtomic) ps ++
      .text (" " ++ op.sql ++ " ") :: Piece.enclosedIf (!r.isAtomic) qs) :=
    (hps.enclosedIf _).append (.text_cons (isFree_binary op) (hqs.enclosedIf _))
  cases op with
  | compare op => exact hplain
  | arithmetic op => exact hplain
  | pattern m =>
    simp only [BinaryOp.pieces, PatternMatch.pieces]
    split
    · exact .notice_cons _ (avoids_lowered m.negated hps hqs)
    · exact hplain

/-- A subquery after the opening of a quantified comparison is in parentheses. -/
theorem avoids_opening (op : Comparison) (quantifier : Quantifier) (h : Avoids k [] ps) :
    Avoids k breaks (quantifier.opening k.dialect op ++ ps ++ [.text ")"]) := by
  unfold Quantifier.opening
  split
  · exact .enclosed (isOpening_quantified op quantifier) h
  · split
    · exact .enclosed (isOpening_membershipText false) h
    · exact .enclosed (isOpening_membershipText true) h
    · exact .notice_cons _ (.enclosed (isOpening_quantified op quantifier) h)

end Parts

end Piece

/-! ### Expressions -/

section Expressions

open Piece (Avoids)

variable {k : DialectKind}

/-- An expression has no breaks outside of parentheses if its parts have none and the parentheses of
its subquery match. -/
theorem Expr.avoids_breaks_of_parts (e : Expr) (qualify : Bool)
    (parts : ∀ c ∈ e.children, Avoids k breaks (c.pieces k.dialect qualify))
    (query : ∀ s, e.query? = some s → Avoids k [] (s.pieces k.dialect)) :
    Avoids k breaks (e.pieces k.dialect qualify) := by
  cases e with
  | column c => exact Piece.avoids_columnPieces qualify c
  | literal v type? => exact Piece.avoids_parameter v
  | negation e =>
    exact .text_cons (Piece.isFree_of_mem (by decide))
      ((parts e (by simp [Expr.children])).enclosedIf _)
  | complement e =>
    exact .enclosed (Piece.isOpening_of_mem (by decide)) (parts e (by simp [Expr.children])).closed
  | nullTest e negated =>
    refine ((parts e (by simp [Expr.children])).enclosedIf _).append
      (.text (Piece.isFree_of_mem ?_))
    cases negated <;> decide
  | binary l op r =>
    exact Piece.avoids_binaryPieces (parts l (by simp [Expr.children]))
      (parts r (by simp [Expr.children]))
  | junction kind es =>
    unfold Expr.pieces
    split
    · exact .text (Piece.isFree_truthValue _)
    · rw [partPieces_eq]
      exact .separated (Piece.isFree_connective kind)
        (List.forall_mem_map.2 fun e he => (parts e he).enclosedIf _)
  | rowCount => exact .callPieces _ (Avoids.text (Piece.isFree_of_mem (by decide))).closed
  | valueCount distinct e =>
    have he := parts e (by simp [Expr.children])
    refine .callPieces _ (Avoids.closed ?_)
    cases distinct
    · exact he
    · exact .text_cons (Piece.isFree_of_mem (by decide)) he
  | apply f e => exact .callPieces _ (parts e (by simp [Expr.children])).closed
  | orElse e fallback =>
    refine .callPieces _ (.commaSeparated fun ps hps => Avoids.closed ?_)
    revert ps
    simpa [Expr.children] using parts
  | extremum f first second rest =>
    refine .callPieces _ (.commaSeparated fun ps hps => Avoids.closed ?_)
    revert ps
    simpa [Expr.children, itemPieces_eq] using parts
  | joinedText e separator =>
    have he := parts e (by simp [Expr.children])
    refine .callPieces _ ?_
    split
    · exact (he.append (.text_cons (Piece.isFree_of_mem (by decide))
        (Piece.avoids_quotedText separator))).closed
    · refine .commaSeparated (List.forall_mem_cons.2 ⟨he.closed, List.forall_mem_singleton.2 ?_⟩)
      exact (Piece.avoids_parameter _).closed
  | listMembership e items negated =>
    have he := (parts e (by simp [Expr.children])).enclosedIf (!e.isAtomic)
    unfold Expr.pieces
    split
    · exact .text (Piece.isFree_truthValue _)
    · rw [itemPieces_eq, List.append_assoc]
      refine he.append (.enclosed (Piece.isOpening_membershipText negated) (.commaSeparated ?_))
      exact List.forall_mem_map.2 fun c hc => (parts c (List.mem_cons_of_mem _ hc)).closed
  | rowMembership e s negated =>
    have he := (parts e (by simp [Expr.children])).enclosedIf (!e.isAtomic)
    rw [Expr.pieces, List.append_assoc]
    exact he.append (.enclosed (Piece.isOpening_membershipText negated) (query s rfl))
  | range e low high negated =>
    have hlow := (parts low (by simp [Expr.children])).enclosedIf (!low.isAtomic)
    have hhigh := (parts high (by simp [Expr.children])).enclosedIf (!high.isAtomic)
    refine (((parts e (by simp [Expr.children])).enclosedIf _).append
      (.text_cons (Piece.isFree_of_mem ?_) hlow)).append
      (.text_cons (Piece.isFree_of_mem (by decide)) hhigh)
    cases negated <;> decide
  | existence s negated =>
    refine .enclosed (Piece.isOpening_of_mem ?_) (query s rfl)
    cases negated <;> decide
  | quantified e op quantifier s =>
    have he := (parts e (by simp [Expr.children])).enclosedIf (!e.isAtomic)
    rw [Expr.pieces, List.append_assoc, List.append_assoc]
    exact he.append (List.append_assoc _ _ _ ▸ Piece.avoids_opening op quantifier (query s rfl))

end Expressions

end TypedSql
