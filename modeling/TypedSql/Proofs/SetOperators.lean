import Mathlib.Data.Multiset.Dedup
import Mathlib.Data.Multiset.UnionInter
import TypedSql.Proofs.Literals
import TypedSql.Proofs.Quoting

/-!
# How set operators group

A compound select is written as its members with set operators between them, and without
parentheses. What it means is then up to the reader. `SetTree.leftToRight` combines every member with
all that came before; `SetTree.byPrecedence` is the reading of standard SQL, where `INTERSECT` binds
tighter than the other operators and operators of one precedence group to the left, as
`SetTree.reads_byPrecedence` says. `CompoundSelect.segments_compile` finds the members and the
operators in the text, and `CompoundSelect.byPrecedence_eq_leftToRight_iff` says when the readings
agree: as long as no `INTERSECT` comes after another operator.
-/

namespace TypedSql

/-! ### Combinations of rows -/

/-- The rows that an operator combines two collections of rows to. -/
def SetOperator.apply {α : Type} [DecidableEq α] (op : SetOperator) (left right : Multiset α) :
    Multiset α :=
  match op with
  | .union => (left + right).dedup
  | .unionAll => left + right
  | .intersect => left.dedup ∩ right.dedup
  | .except => left.dedup - right.dedup

/-- A combination of members, which are known by their positions. -/
inductive SetTree
  | member (i : Nat)
  | combine (op : SetOperator) (left right : SetTree)

namespace SetTree

/-- The rows of a combination, for the rows of each member. -/
def result {α : Type} [DecidableEq α] (rows : Nat → Multiset α) : SetTree → Multiset α
  | .member i => rows i
  | .combine op left right => op.apply (left.result rows) (right.result rows)

/-- Combine with members from a position on, one after the other. -/
def extend (t : SetTree) (next : Nat) : List SetOperator → SetTree
  | [] => t
  | op :: ops => (combine op t (.member next)).extend (next + 1) ops

/-- The members with operators between them, combined from left to right. -/
def leftToRight (ops : List SetOperator) : SetTree :=
  (member 0).extend 1 ops

/-- A term as the right operand of what waits for one, if something does. -/
def close (waiting? : Option (SetTree × SetOperator)) (term : SetTree) : SetTree :=
  match waiting? with
  | none => term
  | some (left, op) => combine op left term

/-- Read members from a position on, after a term that `INTERSECT` extends and any other operator
ends. -/
def readOn (waiting? : Option (SetTree × SetOperator)) (term : SetTree) (next : Nat) :
    List SetOperator → SetTree
  | [] => close waiting? term
  | op :: ops =>
    if op = .intersect then readOn waiting? (combine .intersect term (.member next)) (next + 1) ops
    else readOn (some (close waiting? term, op)) (.member next) (next + 1) ops

/-- The members with operators between them, where `INTERSECT` binds tighter than the others. -/
def byPrecedence (ops : List SetOperator) : SetTree :=
  readOn none (.member 0) 1 ops

end SetTree

/-! ### The standard reading -/

/-- How tight an operator binds. -/
def SetOperator.strength : SetOperator → Nat
  | .intersect => 1
  | .union | .unionAll | .except => 0

theorem SetOperator.strength_eq_zero {op : SetOperator} (hop : op ≠ .intersect) :
    op.strength = 0 := by
  cases op with
  | intersect => exact absurd rfl hop
  | _ => rfl

/-- Operators from a member on, each with the member after it. -/
def SetOperator.sequence (next : Nat) : List SetOperator → List (SetOperator ⊕ Nat)
  | [] => []
  | op :: ops => .inl op :: .inr next :: sequence (next + 1) ops

namespace SetTree

/-- How tight a combination holds together; a member is one whole. -/
def strength : SetTree → Nat
  | .member _ => 2
  | .combine op _ _ => op.strength

/-- Without parentheses, an operator takes what binds tighter than itself on its right, and on its
left also what binds as tight. -/
def IsGrouped : SetTree → Prop
  | .member _ => True
  | .combine op left right =>
    left.IsGrouped ∧ right.IsGrouped ∧ op.strength ≤ left.strength ∧ op.strength < right.strength

/-- The members and operators of a combination from left to right. -/
def written : SetTree → List (SetOperator ⊕ Nat)
  | .member i => [.inr i]
  | .combine op left right => left.written ++ .inl op :: right.written

/-- A combination is what members with operators between them are read as. -/
def Reads (t : SetTree) (ops : List SetOperator) : Prop :=
  t.IsGrouped ∧ t.written = .inr 0 :: SetOperator.sequence 1 ops

theorem isGrouped_close {waiting? : Option (SetTree × SetOperator)} {term : SetTree}
    (hwaiting : ∀ left op, waiting? = some (left, op) → left.IsGrouped ∧ op ≠ .intersect)
    (hterm : term.IsGrouped) (hstrength : 0 < term.strength) : (close waiting? term).IsGrouped := by
  cases waiting? with
  | none => exact hterm
  | some waiting =>
    obtain ⟨left, op⟩ := waiting
    obtain ⟨hleft, hop⟩ := hwaiting left op rfl
    have hzero := SetOperator.strength_eq_zero hop
    exact ⟨hleft, hterm, by omega, by omega⟩

/-- What waits is grouped, and its operator binds no tighter than any that may follow. -/
theorem isGrouped_readOn {waiting? : Option (SetTree × SetOperator)} {term : SetTree} {next : Nat}
    {ops : List SetOperator}
    (hwaiting : ∀ left op, waiting? = some (left, op) → left.IsGrouped ∧ op ≠ .intersect)
    (hterm : term.IsGrouped) (hstrength : 0 < term.strength) :
    (readOn waiting? term next ops).IsGrouped := by
  induction ops generalizing waiting? term next with
  | nil => exact isGrouped_close hwaiting hterm hstrength
  | cons op ops ih =>
    by_cases hop : op = .intersect
    · rw [readOn, if_pos hop]
      exact ih hwaiting ⟨hterm, trivial, hstrength, Nat.one_lt_two⟩ Nat.one_pos
    · rw [readOn, if_neg hop]
      refine ih ?_ trivial Nat.two_pos
      rintro left op' ⟨⟩
      exact ⟨isGrouped_close hwaiting hterm hstrength, hop⟩

/-- Nothing is lost and nothing changes its place. -/
theorem written_readOn (waiting? : Option (SetTree × SetOperator)) (term : SetTree) (next : Nat)
    (ops : List SetOperator) :
    (readOn waiting? term next ops).written =
      (close waiting? term).written ++ SetOperator.sequence next ops := by
  induction ops generalizing waiting? term next with
  | nil => rw [readOn, SetOperator.sequence, List.append_nil]
  | cons op ops ih =>
    by_cases hop : op = .intersect
    · rw [readOn, if_pos hop, ih]
      cases waiting? <;> simp [close, written, SetOperator.sequence, hop]
    · rw [readOn, if_neg hop, ih]
      simp [close, written, SetOperator.sequence]

theorem reads_byPrecedence (ops : List SetOperator) : (byPrecedence ops).Reads ops :=
  ⟨isGrouped_readOn (by rintro _ _ ⟨⟩) trivial Nat.two_pos, written_readOn none (.member 0) 1 ops⟩

end SetTree

/-- After the operators that are `INTERSECT`, there is another one and then `INTERSECT` again. -/
def IntersectsLate (ops : List SetOperator) : Prop :=
  .intersect ∈ ops.dropWhile (· = .intersect)

namespace SetTree

variable {ops : List SetOperator} {t : SetTree} {next : Nat}

theorem intersectsLate_intersect_cons :
    IntersectsLate (.intersect :: ops) ↔ IntersectsLate ops := by
  simp [IntersectsLate]

theorem intersectsLate_cons {op : SetOperator} (hop : op ≠ .intersect) :
    IntersectsLate (op :: ops) ↔ .intersect ∈ ops := by
  simp [IntersectsLate, hop, Ne.symm hop]

/-! ### Where the readings agree -/

/-- Without `INTERSECT` every term is a single member. -/
theorem readOn_eq_extend_close (h : .intersect ∉ ops) (waiting? : Option (SetTree × SetOperator)) :
    readOn waiting? t next ops = (close waiting? t).extend next ops := by
  induction ops generalizing waiting? t next with
  | nil => rfl
  | cons op ops ih =>
    obtain ⟨hop, hops⟩ := not_or.1 (List.mem_cons.not.1 h)
    rw [readOn, if_neg (Ne.symm hop), ih hops]
    rfl

/-- The first term may be of any length. -/
theorem readOn_eq_extend (h : ¬ IntersectsLate ops) :
    readOn none t next ops = t.extend next ops := by
  induction ops generalizing t next with
  | nil => rfl
  | cons op ops ih =>
    by_cases hop : op = .intersect
    · subst hop
      rw [readOn, if_pos rfl, ih (intersectsLate_intersect_cons.not.1 h)]
      rfl
    · rw [readOn, if_neg hop, readOn_eq_extend_close ((intersectsLate_cons hop).not.1 h)]
      rfl

/-! ### Where they do not -/

section Collapse

variable {α : Type} {rows : Nat → Multiset α}

/-- The members of the first term have a row and the others have none. -/
def RowInFirstTerm (x : α) (rows : Nat → Multiset α) (next : Nat) (ops : List SetOperator) : Prop :=
  ∃ last, last = next + (ops.takeWhile (· = .intersect)).length ∧
    (∀ i, i < last → rows i = {x}) ∧ ∀ i, last ≤ i → rows i = 0

theorem RowInFirstTerm.tail {x : α} (h : RowInFirstTerm x rows next (.intersect :: ops)) :
    rows next = {x} ∧ RowInFirstTerm x rows (next + 1) ops := by
  obtain ⟨last, hlast, hfirst, hlater⟩ := h
  simp only [decide_true, List.takeWhile_cons_of_pos, List.length_cons] at hlast
  exact ⟨hfirst next (by omega), last, by omega, hfirst, hlater⟩

theorem RowInFirstTerm.eq_zero {x : α} {op : SetOperator} (hop : op ≠ .intersect)
    (h : RowInFirstTerm x rows next (op :: ops)) : ∀ i, next ≤ i → rows i = 0 := by
  obtain ⟨last, hlast, -, hlater⟩ := h
  simp only [hop, decide_false, Bool.false_eq_true, not_false_eq_true, List.takeWhile_cons_of_neg,
    List.length_nil] at hlast
  exact fun i hi => hlater i (by omega)

variable [DecidableEq α]

theorem apply_zero (op : SetOperator) : op.apply (0 : Multiset α) 0 = 0 := by
  cases op <;> simp [SetOperator.apply]

theorem apply_intersect_zero (a : Multiset α) : SetOperator.intersect.apply a 0 = 0 := by
  simp [SetOperator.apply]

theorem apply_intersect_self (x : α) : SetOperator.intersect.apply {x} {x} = {x} := by
  have hself : ({x} : Multiset α) ∩ {x} = {x} :=
    (Multiset.inf_eq_inter _ _).symm.trans (inf_idem _)
  simp [SetOperator.apply, hself]

theorem apply_singleton_zero {op : SetOperator} (hop : op ≠ .intersect) (x : α) :
    op.apply {x} 0 = {x} := by
  cases op with
  | intersect => exact absurd rfl hop
  | _ => simp [SetOperator.apply]

theorem result_intersect_zero (hrows : rows next = 0) :
    (combine .intersect t (.member next)).result rows = 0 := by
  rw [result, result, hrows, apply_intersect_zero]

/-- A term without rows leaves what waits for it as it is. -/
theorem result_close_some {left : SetTree} {op : SetOperator} {x : α} (hop : op ≠ .intersect)
    (hleft : left.result rows = {x}) (ht : t.result rows = 0) :
    (close (some (left, op)) t).result rows = {x} := by
  rw [close, result, hleft, ht, apply_singleton_zero hop]

/-- Nothing comes of nothing. -/
theorem result_extend_eq_zero (ht : t.result rows = 0) (hrows : ∀ i, next ≤ i → rows i = 0) :
    (t.extend next ops).result rows = 0 := by
  induction ops generalizing t next with
  | nil => exact ht
  | cons op ops ih =>
    have hnone : (combine op t (.member next)).result rows = 0 := by
      rw [result, ht, result, hrows next (Nat.le_refl next), apply_zero]
    exact ih hnone fun i hi => hrows i (by omega)

/-- From left to right, an `INTERSECT` with a member that has no rows leaves none. -/
theorem result_extend_of_mem (hmem : .intersect ∈ ops) (hrows : ∀ i, next ≤ i → rows i = 0) :
    (t.extend next ops).result rows = 0 := by
  induction ops generalizing t next with
  | nil => cases hmem
  | cons op ops ih =>
    have hlater : ∀ i, next + 1 ≤ i → rows i = 0 := fun i hi => hrows i (by omega)
    rcases List.mem_cons.1 hmem with rfl | hmem
    · rw [extend]
      exact result_extend_eq_zero (result_intersect_zero (hrows next (Nat.le_refl next))) hlater
    · exact ih hmem hlater

/-- By precedence, terms without rows leave what waits for them as it is. -/
theorem result_readOn_some {left : SetTree} {op : SetOperator} {x : α} (hop : op ≠ .intersect)
    (hleft : left.result rows = {x}) (ht : t.result rows = 0)
    (hrows : ∀ i, next ≤ i → rows i = 0) :
    (readOn (some (left, op)) t next ops).result rows = {x} := by
  induction ops generalizing left op t next with
  | nil => exact result_close_some hop hleft ht
  | cons op' ops ih =>
    have hnext := hrows next (Nat.le_refl next)
    have hlater : ∀ i, next + 1 ≤ i → rows i = 0 := fun i hi => hrows i (by omega)
    by_cases hop' : op' = .intersect
    · rw [readOn, if_pos hop']
      exact ih hop hleft (result_intersect_zero hnext) hlater
    · rw [readOn, if_neg hop']
      exact ih hop' (result_close_some hop hleft ht) hnext hlater

/-- From left to right, the late `INTERSECT` takes the row away. -/
theorem result_extend_of_intersectsLate {x : α} (hlate : IntersectsLate ops)
    (h : RowInFirstTerm x rows next ops) : (t.extend next ops).result rows = 0 := by
  induction ops generalizing t next with
  | nil => cases hlate
  | cons op ops ih =>
    by_cases hop : op = .intersect
    · subst hop
      exact ih (intersectsLate_intersect_cons.1 hlate) h.tail.2
    · exact result_extend_of_mem (List.mem_cons_of_mem _ ((intersectsLate_cons hop).1 hlate))
        (h.eq_zero hop)

/-- By precedence, the row stays. -/
theorem result_readOn_none {x : α} (ht : t.result rows = {x}) (h : RowInFirstTerm x rows next ops) :
    (readOn none t next ops).result rows = {x} := by
  induction ops generalizing t next with
  | nil => exact ht
  | cons op ops ih =>
    by_cases hop : op = .intersect
    · subst hop
      have hterm : (combine .intersect t (.member next)).result rows = {x} := by
        rw [result, result, ht, h.tail.1, apply_intersect_self]
      rw [readOn, if_pos rfl]
      exact ih hterm h.tail.2
    · have hzero := h.eq_zero hop
      rw [readOn, if_neg hop]
      exact result_readOn_some hop ht (hzero next (Nat.le_refl next)) fun i hi => hzero i (by omega)

end Collapse

/-- **The two readings agree for all rows as long as no `INTERSECT` comes after another operator.** -/
theorem result_byPrecedence_iff (ops : List SetOperator) :
    (∀ (α : Type) [DecidableEq α] (rows : Nat → Multiset α),
      (byPrecedence ops).result rows = (leftToRight ops).result rows) ↔ ¬ IntersectsLate ops := by
  constructor
  · -- One row for each member of the first term, and none for the others, tells the two apart.
    intro h hlate
    let last := 1 + (ops.takeWhile (· = .intersect)).length
    let rows : Nat → Multiset Unit := fun i => if i < last then {()} else 0
    have hrow : RowInFirstTerm () rows 1 ops :=
      ⟨last, rfl, fun i hi => if_pos hi, fun i hi => if_neg (by omega)⟩
    have hfirst : (member 0).result rows = {()} := if_pos (by omega)
    have hagree := h Unit rows
    rw [byPrecedence, leftToRight, result_readOn_none hfirst hrow,
      result_extend_of_intersectsLate hlate hrow] at hagree
    exact absurd hagree (Multiset.singleton_ne_zero ())
  · intro h α _ rows
    rw [byPrecedence, leftToRight, readOn_eq_extend h]

/-- The union waits for the intersection, and the difference does not. -/
example : byPrecedence [.union, .intersect, .except] =
    combine .except (combine .union (member 0) (combine .intersect (member 1) (member 2)))
      (member 3) := rfl

end SetTree

/-! ### The operators of a text -/

/-- The set operator that a word spells. -/
def Token.setOperator? {α : Type} : Token α → Option SetOperator
  | .word w => [SetOperator.union, .intersect, .except].find? fun op => op.sql == w
  | _ => none

/-- A set operator with the tokens after it, of which `UNION` takes an `ALL`. -/
def SetOperator.withAll (op : SetOperator) (ts : List (Token Nat)) :
    SetOperator × List (Token Nat) :=
  match op, ts with
  | .union, .word "ALL" :: ts => (.unionAll, ts)
  | op, ts => (op, ts)

/-- The tokens before the first set operator, and every set operator with the tokens after it. -/
def segments : List (Token Nat) → List (Token Nat) × List (SetOperator × List (Token Nat))
  | [] => ([], [])
  | t :: ts =>
    match t.setOperator? with
    | some op => ([], op.withAll (segments ts).1 :: (segments ts).2)
    | none => (t :: (segments ts).1, (segments ts).2)

/-- Tokens begin with the text of a select, whose first placeholder has some position. -/
def Select.IsTextOf (d : Dialect) (s : Select) (ts : List (Token Nat)) : Prop :=
  ∃ n, Piece.tokens d n (s.pieces d) <+: ts

theorem segments_append {ts us : List (Token Nat)} (h : ∀ t ∈ ts, t.setOperator? = none) :
    segments (ts ++ us) = (ts ++ (segments us).1, (segments us).2) := by
  induction ts with
  | nil => rfl
  | cons t ts ih =>
    obtain ⟨ht, hts⟩ := List.forall_mem_cons.1 h
    rw [List.cons_append, segments, ht, ih hts]
    rfl

theorem segments_eq_self {ts : List (Token Nat)} (h : ∀ t ∈ ts, t.setOperator? = none) :
    segments ts = (ts, []) := by
  have hsegments := @segments_append ts [] h
  rwa [List.append_nil, segments, List.append_nil] at hsegments

section Vocabulary

variable {k : DialectKind}

/-- Before a select, a written set operator is read as itself. -/
theorem segments_setOperator (op : SetOperator) {ts us : List (Token Nat)}
    (hselect : us = .word "SELECT" :: ts) :
    segments (lex k.dialect.identifierQuote (" " ++ op.sql ++ " ") ++ us) =
      ([], (op, (segments us).1) :: (segments us).2) := by
  have hlex : lex k.dialect.identifierQuote (" " ++ op.sql ++ " ") =
      if op = .unionAll then [.word "UNION", .word "ALL"] else [.word op.sql] := by
    cases k <;> cases op <;> decide
  rw [hlex, hselect]
  cases op with
  | unionAll => simp [segments, Token.setOperator?, SetOperator.sql, SetOperator.withAll]
  | _ => simp [segments, Token.setOperator?, SetOperator.sql, SetOperator.withAll]

/-- A number is no set operator. -/
theorem setOperator?_number (n : Nat) :
    (Token.word (toString n) : Token Nat).setOperator? = none := by
  refine List.find?_eq_none.2 fun op _ hop => ?_
  have hdigits : op.sql.toList.all Char.isDigit = true := eq_of_beq hop ▸ all_isDigit_toString n
  cases op <;> exact absurd hdigits (by decide)

/-- The number after a keyword of a clause, like the keyword, is no set operator. -/
theorem setOperator?_clause {keyword : String}
    (hkeyword : keyword ∈ [" LIMIT ", " OFFSET "]) (n : Nat) :
    ∀ t ∈ lex k.dialect.identifierQuote (keyword ++ toString n), t.setOperator? = none := by
  have hrun : ∃ w, Lexer.run k.dialect.identifierQuote .idle keyword.toList =
      ([.word w], .idle) ∧ (Token.word w : Token Nat).setOperator? = none := by
    rcases List.mem_pair.1 hkeyword with rfl | rfl
    · exact ⟨"LIMIT", by cases k <;> rfl, by decide⟩
    · exact ⟨"OFFSET", by cases k <;> rfl, by decide⟩
  obtain ⟨w, hrun, hw⟩ := hrun
  rw [lex_numbered k.isPlain.quote hrun]
  exact List.forall_mem_cons.2 ⟨hw, List.forall_mem_singleton.2 (setOperator?_number n)⟩

/-- No word of expressions and selects is a set operator. -/
theorem Dialect.Says.setOperator? {s : String} (h : k.dialect.Says s) :
    ∀ t ∈ lex k.dialect.identifierQuote s, t.setOperator? = none := by
  have hkeywords : ∀ s ∈ keywords, ∀ t ∈ lex k.dialect.identifierQuote s,
      t.setOperator? = none := by
    cases k <;> decide
  cases h with
  | keyword hs => exact hkeywords s hs
  | operator op =>
    rcases op with op | ⟨ignoresCase, negated⟩ | op
    · cases k <;> cases op <;> decide
    · cases k <;> cases ignoresCase <;> cases negated <;> decide
    · cases k <;> cases op <;> decide
  | quantified op quantifier => cases k <;> cases op <;> cases quantifier <;> decide
  | connective kind => cases k <;> cases kind <;> decide
  | functionName f => cases k <;> cases f <;> decide
  | truthValue b => cases k <;> cases b <;> decide
  | join kind => cases k <;> cases kind <;> decide
  | crossJoin => cases k <;> decide
  | direction direction => cases k <;> cases direction <;> decide
  | placement nulls => cases k <;> cases nulls <;> decide
  | limit n => exact setOperator?_clause (by decide) n
  | unbounded hs => cases k <;> cases hs <;> decide
  | offset n => exact setOperator?_clause (by decide) n

/-- What is written for expressions and selects has no set operators. -/
theorem Piece.setOperator?_tokens {ps : List Piece} (h : ∀ s, .text s ∈ ps → k.dialect.Says s)
    (n : Nat) : ∀ t ∈ tokens k.dialect n ps, t.setOperator? = none := by
  induction ps generalizing n with
  | nil => exact List.forall_mem_nil _
  | cons p ps ih =>
    have hrest := ih fun s hs => h s (List.mem_cons_of_mem _ hs)
    cases p with
    | text s =>
      exact List.forall_mem_append.2 ⟨(h s List.mem_cons_self).setOperator?, hrest n⟩
    | identifier name => exact List.forall_mem_cons.2 ⟨rfl, hrest n⟩
    | parameter v =>
      refine List.forall_mem_cons.2 ⟨?_, hrest (n + 1)⟩
      cases hstyle : k.dialect.placeholderStyle <;> rfl
    | quotedText s => exact List.forall_mem_cons.2 ⟨rfl, hrest n⟩
    | notice _ => exact hrest n

/-- The text of a select starts with its keyword. -/
theorem Select.tokens_pieces (s : Select) (n : Nat) :
    ∃ ts, Piece.tokens k.dialect n (s.pieces k.dialect) = .word "SELECT" :: ts := by
  have hselect : lex k.dialect.identifierQuote "SELECT " = [.word "SELECT"] := by
    cases k <;> decide
  rw [Select.pieces_eq]
  simp only [List.cons_append, Piece.tokens, hselect]
  exact ⟨_, rfl⟩

/-- After the text of a select, the splitting goes on as at the start. -/
theorem Select.segments_tokens (s : Select) (n : Nat) (ps : List Piece) :
    ∃ m, segments (Piece.tokens k.dialect n (s.pieces k.dialect ++ ps)) =
      (Piece.tokens k.dialect n (s.pieces k.dialect) ++ (segments (Piece.tokens k.dialect m ps)).1,
        (segments (Piece.tokens k.dialect m ps)).2) := by
  refine ⟨n + (Piece.parameters (s.pieces k.dialect)).length, ?_⟩
  rw [Piece.tokens_append, segments_append (Piece.setOperator?_tokens s.emitted_pieces.1 n)]

/-- The text of the members of a compound select, with something after the last that has no set
operators, is split where its operators are. -/
theorem CompoundSelect.segments_tokens {tail : List Piece}
    (htail : ∀ s, .text s ∈ tail → k.dialect.Says s) (first : Select)
    (rest : List (SetOperator × Select)) (n : Nat) :
    ∃ text texts, segments (Piece.tokens k.dialect n
        (first.pieces k.dialect ++ (memberPieces k.dialect rest ++ tail))) = (text, texts) ∧
      texts.map Prod.fst = rest.map Prod.fst ∧
      List.Forall₂ (Select.IsTextOf k.dialect) (first :: rest.map Prod.snd)
        (text :: texts.map Prod.snd) := by
  induction rest generalizing first n with
  | nil =>
    obtain ⟨m, hfirst⟩ := first.segments_tokens (k := k) n tail
    rw [segments_eq_self (Piece.setOperator?_tokens htail m)] at hfirst
    exact ⟨_, [], hfirst, rfl, .cons ⟨n, List.prefix_append _ _⟩ .nil⟩
  | cons member rest ih =>
    obtain ⟨op, next⟩ := member
    obtain ⟨m, hfirst⟩ := first.segments_tokens (k := k) n
      (memberPieces k.dialect ((op, next) :: rest) ++ tail)
    obtain ⟨text, texts, hnext, hops, htexts⟩ := ih next m
    obtain ⟨ts, hselect⟩ := next.tokens_pieces (k := k) m
    have hmembers : memberPieces k.dialect ((op, next) :: rest) ++ tail =
        .text (" " ++ op.sql ++ " ") ::
          (next.pieces k.dialect ++ (memberPieces k.dialect rest ++ tail)) := by
      simp [memberPieces]
    rw [hmembers] at hfirst
    rw [hmembers, hfirst, Piece.tokens, segments_setOperator op
      (by rw [Piece.tokens_append, hselect, List.cons_append]), hnext, List.append_nil]
    refine ⟨_, _, rfl, ?_, .cons ⟨n, List.prefix_rfl⟩ htexts⟩
    rw [List.map_cons, hops, List.map_cons]

end Vocabulary

/-- The text of a compound select is that of its members in order with their set operators between
them. -/
theorem CompoundSelect.segments_compile (k : DialectKind) (c : CompoundSelect) :
    ∃ text texts, segments (lex k.dialect.identifierQuote
        ((Statement.compound c).compile k.dialect).sql) = (text, texts) ∧
      texts.map Prod.fst = c.rest.map Prod.fst ∧
      List.Forall₂ (Select.IsTextOf k.dialect) c.members (text :: texts.map Prod.snd) := by
  have htail := (emitted_pagingPieces (d := k.dialect) c.orderBy c.limit? c.offset?).1
  rw [Statement.lex_compile k.isPlain, Statement.pieces, CompoundSelect.pieces]
  simp only [List.append_assoc]
  exact segments_tokens htail c.first c.rest 1

/-- **The standard reading of a compound select combines its members from left to right as long as no
`INTERSECT` comes after another operator**, and else there are rows of the members for which it does
not. -/
theorem CompoundSelect.byPrecedence_eq_leftToRight_iff (k : DialectKind) (c : CompoundSelect) :
    ∃ text texts, segments (lex k.dialect.identifierQuote
        ((Statement.compound c).compile k.dialect).sql) = (text, texts) ∧
      List.Forall₂ (Select.IsTextOf k.dialect) c.members (text :: texts.map Prod.snd) ∧
      (SetTree.byPrecedence (texts.map Prod.fst)).Reads (texts.map Prod.fst) ∧
      ((∀ (α : Type) [DecidableEq α] (rows : Nat → Multiset α),
          (SetTree.byPrecedence (texts.map Prod.fst)).result rows =
            (SetTree.leftToRight (c.rest.map Prod.fst)).result rows) ↔
        ¬ IntersectsLate (c.rest.map Prod.fst)) := by
  obtain ⟨text, texts, hsegments, hops, htexts⟩ := c.segments_compile k
  refine ⟨text, texts, hsegments, htexts, SetTree.reads_byPrecedence _, ?_⟩
  rw [hops]
  exact SetTree.result_byPrecedence_iff (c.rest.map Prod.fst)

/-! ### An intersection after a union -/

/-- A table of sales with their prices. -/
def sales : Table :=
  priced ⟨none, "sales", none⟩

/-- Of the prices of goods and orders, those of sales. -/
def soldPrices : CompoundSelect :=
  ⟨Select.ofTable goods, [(.union, Select.ofTable orders), (.intersect, Select.ofTable sales)], [],
    none, none⟩

/-- **The two readings differ**: from left to right, nothing is left of a price of goods if there are
no sales; the standard reading of the text keeps it. -/
theorem byPrecedence_ne_leftToRight_soldPrices :
    (do let c ← (Select.ofTable goods).combine .union (Select.ofTable orders)
        c.combine .intersect (Select.ofTable sales)) = .ok soldPrices ∧
      ((Statement.compound soldPrices).compile .postgres).sql =
        "SELECT \"price\" FROM \"goods\" UNION SELECT \"price\" FROM \"orders\" " ++
          "INTERSECT SELECT \"price\" FROM \"sales\"" ∧
      ∃ text texts, segments (lex '"' ((Statement.compound soldPrices).compile .postgres).sql) =
          (text, texts) ∧
        ∃ rows : Nat → Multiset Unit,
          (SetTree.byPrecedence (texts.map Prod.fst)).result rows = {()} ∧
            (SetTree.leftToRight (soldPrices.rest.map Prod.fst)).result rows = 0 := by
  obtain ⟨text, texts, hsegments, hops, -⟩ := soldPrices.segments_compile .postgres
  refine ⟨rfl, rfl, text, texts, hsegments, fun i => if i = 0 then {()} else 0, ?_, rfl⟩
  rw [hops]
  rfl

end TypedSql
