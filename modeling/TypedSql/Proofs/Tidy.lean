import TypedSql.Proofs.PieceView
import TypedSql.Proofs.Token

/-!
# Tidy layouts

Two pieces that stand side by side could fuse into one token: a word with a word, an operator with
an operator, a quote with a quote. A layout is tidy when its fixed text is made of words, operators,
parentheses, commas, dots and blanks, and no two neighbours fuse. `Statement.tidy_pieces` says that
layouts for a dialect with plain spellings are tidy, whatever names and values are in them.
-/

namespace TypedSql

/-- A character of fixed text. -/
def isPlainChar (c : Char) : Bool :=
  isWordChar c || isOperatorChar c || [' ', '(', ')', ',', '.'].contains c

/-- A text of plain characters that is not empty. -/
def IsPlainText (s : String) : Prop :=
  s.toList ≠ [] ∧ ∀ c ∈ s.toList, isPlainChar c = true

-- Through `List.all`: the quantifier alone could be decided by going through all characters.
instance (s : String) : Decidable (IsPlainText s) :=
  decidable_of_iff (s.toList ≠ [] ∧ s.toList.all isPlainChar = true) (by simp [IsPlainText])

/-- A text of word characters that is not empty. -/
def IsPlainWord (s : String) : Prop :=
  s.toList ≠ [] ∧ ∀ c ∈ s.toList, isWordChar c = true

instance (s : String) : Decidable (IsPlainWord s) :=
  decidable_of_iff (s.toList ≠ [] ∧ s.toList.all isWordChar = true) (by simp [IsPlainWord])

theorem IsPlainText.append {s t : String} (hs : IsPlainText s) (ht : IsPlainText t) :
    IsPlainText (s ++ t) := by
  refine ⟨by simp [hs.1], fun c hc => ?_⟩
  rw [String.toList_append, List.mem_append] at hc
  exact hc.elim (hs.2 c) (ht.2 c)

theorem IsPlainWord.isPlainText {s : String} (h : IsPlainWord s) : IsPlainText s :=
  ⟨h.1, fun c hc => by simp [isPlainChar, h.2 c hc]⟩

/-- A number is written in digits. -/
theorem all_isDigit_toString (n : Nat) : (toString n).toList.all Char.isDigit = true := by
  have htoList : (toString n).toList = Nat.toDigits 10 n := by simp
  rw [htoList, List.all_eq_true]
  exact fun c hc => Nat.isDigit_of_mem_toDigits (by omega) (by omega) hc

theorem isPlainWord_toString (n : Nat) : IsPlainWord (toString n) := by
  have htoList : (toString n).toList = Nat.toDigits 10 n := by simp
  refine ⟨htoList ▸ Nat.toDigits_ne_nil, fun c hc => ?_⟩
  have hdigit : c.isDigit = true := List.all_eq_true.1 (all_isDigit_toString n) c hc
  simp [isWordChar, Char.isAlphanum, hdigit]

/-- The spellings of a dialect are plain, and its quote is no character of them. -/
structure Dialect.IsPlain (d : Dialect) : Prop where
  quote : isPlainChar d.identifierQuote = false ∧ d.identifierQuote ∉ ['\'', '$', '?']
  functionName : ∀ f, IsPlainWord (d.functionName f)
  booleanLiteral : ∀ b, IsPlainWord (d.booleanLiteral b)
  unboundedLimit : ∀ s, d.unboundedLimit? = some s → IsPlainText s

namespace Piece

/-- What a piece shows to its neighbour. -/
inductive Edge
  | blank
  | word
  | operator
  | quote
  deriving DecidableEq

/-- The edge that a plain character makes. -/
def Edge.ofChar (c : Char) : Edge :=
  if isWordChar c then .word else if isOperatorChar c then .operator else .blank

/-- The edge at the start of a text. -/
def firstEdge (s : String) : Edge :=
  (s.toList.head?.map Edge.ofChar).getD .blank

/-- The edge at the end of a text. -/
def lastEdge (s : String) : Edge :=
  (s.toList.getLast?.map Edge.ofChar).getD .blank

/-- Two neighbours do not fuse. -/
def Edge.Apart (e f : Edge) : Prop :=
  e = .blank ∨ e ≠ f

instance (e f : Edge) : Decidable (e.Apart f) :=
  inferInstanceAs (Decidable (_ ∨ _))

/-- Pieces after an edge are tidy. Nothing is written for a notice. -/
def Tidy : Edge → List Piece → Prop
  | _, [] => True
  | e, .text s :: ps => IsPlainText s ∧ e.Apart (firstEdge s) ∧ Tidy (lastEdge s) ps
  | e, .identifier _ :: ps => e ≠ .quote ∧ Tidy .quote ps
  | e, .parameter _ :: ps => e ≠ .word ∧ Tidy .word ps
  | e, .quotedText _ :: ps => e ≠ .quote ∧ Tidy .quote ps
  | e, .notice _ :: ps => Tidy e ps

/-- The edge that pieces leave after an edge. -/
def endEdge : Edge → List Piece → Edge
  | e, [] => e
  | _, .text s :: ps => endEdge (lastEdge s) ps
  | _, .identifier _ :: ps => endEdge .quote ps
  | _, .parameter _ :: ps => endEdge .word ps
  | _, .quotedText _ :: ps => endEdge .quote ps
  | e, .notice _ :: ps => endEdge e ps

@[simp] theorem tidy_nil (e : Edge) : Tidy e [] := trivial

theorem tidy_append (e : Edge) (ps qs : List Piece) :
    Tidy e (ps ++ qs) ↔ Tidy e ps ∧ Tidy (endEdge e ps) qs := by
  induction ps generalizing e with
  | nil => simp [endEdge]
  | cons p ps ih => cases p <;> simp [Tidy, endEdge, ih, and_assoc]

/-- What is tidy after some edge is tidy after a blank. -/
theorem Tidy.of_edge {e : Edge} {ps : List Piece} (h : Tidy e ps) : Tidy .blank ps := by
  induction ps with
  | nil => trivial
  | cons p ps ih => cases p <;> simp_all [Tidy, Edge.Apart]

/-- A plain text that starts with a blank: it stands after anything. -/
def Opens (s : String) : Prop :=
  IsPlainText s ∧ firstEdge s = .blank

/-- A plain text that ends with a blank: anything stands after it. -/
def Closes (s : String) : Prop :=
  IsPlainText s ∧ lastEdge s = .blank

instance (s : String) : Decidable (Opens s) :=
  inferInstanceAs (Decidable (_ ∧ _))

instance (s : String) : Decidable (Closes s) :=
  inferInstanceAs (Decidable (_ ∧ _))

theorem Edge.apart_blank (e : Edge) : e.Apart .blank := by
  cases e <;> decide

/-- Pieces that are tidy after anything. -/
def TidyAnywhere (ps : List Piece) : Prop :=
  ∀ e, Tidy e ps

section Combination

variable {e : Edge} {ps qs : List Piece} {s : String}

theorem Tidy.append (hps : Tidy e ps) (hqs : TidyAnywhere qs) : Tidy e (ps ++ qs) :=
  (tidy_append e ps qs).2 ⟨hps, hqs _⟩

theorem TidyAnywhere.append (hps : TidyAnywhere ps) (hqs : TidyAnywhere qs) :
    TidyAnywhere (ps ++ qs) :=
  fun e => (hps e).append hqs

theorem TidyAnywhere.nil : TidyAnywhere [] := fun _ => trivial

theorem TidyAnywhere.flatMap {α : Type} {items : List α} {layout : α → List Piece}
    (h : ∀ a ∈ items, TidyAnywhere (layout a)) : TidyAnywhere (items.flatMap layout) := by
  induction items with
  | nil => exact .nil
  | cons a items ih =>
    rw [List.flatMap_cons]
    exact (h a (by simp)).append (ih fun b hb => h b (List.mem_cons_of_mem _ hb))

/-- A text that stands after anything. -/
theorem TidyAnywhere.text (h : Opens s) : TidyAnywhere [.text s] :=
  fun e => ⟨h.1, h.2 ▸ e.apart_blank, trivial⟩

/-- A text that stands after anything and has anything after it. -/
theorem TidyAnywhere.text_cons (hopens : Opens s) (hcloses : Closes s) (hqs : Tidy .blank qs) :
    TidyAnywhere (.text s :: qs) :=
  fun e => ⟨hopens.1, hopens.2 ▸ e.apart_blank, hcloses.2 ▸ hqs⟩

theorem Tidy.text (h : IsPlainText s) : Tidy .blank [.text s] :=
  ⟨h, .inl rfl, trivial⟩

/-- A text that has anything after it. -/
theorem Tidy.text_cons (h : Closes s) (hqs : Tidy .blank qs) : Tidy .blank (.text s :: qs) :=
  ⟨h.1, .inl rfl, h.2 ▸ hqs⟩

theorem TidyAnywhere.parenthesized (hps : Tidy .blank ps) : TidyAnywhere (parenthesized ps) :=
  TidyAnywhere.text_cons (by decide) (by decide) (hps.append (.text (by decide)))

theorem Tidy.enclosedIf (b : Bool) (hps : Tidy .blank ps) : Tidy .blank (enclosedIf b ps) := by
  cases b
  · exact hps
  · exact TidyAnywhere.parenthesized hps .blank

theorem Tidy.separated (hopens : Opens s) (hcloses : Closes s) {items : List (List Piece)}
    (h : ∀ ps ∈ items, Tidy .blank ps) : Tidy .blank (separated s items) := by
  fun_induction Piece.separated s items with
  | case1 => trivial
  | case2 ps => exact h ps (by simp)
  | case3 ps qs rest ih =>
    exact (h ps (by simp)).append
      (.text_cons hopens hcloses (ih fun qs hqs => h qs (List.mem_cons_of_mem _ hqs)))

theorem Tidy.commaSeparated {items : List (List Piece)} (h : ∀ ps ∈ items, Tidy .blank ps) :
    Tidy .blank (commaSeparated items) :=
  .separated (by decide) (by decide) h

/-- A call of a function with a plain name. -/
theorem Tidy.callPieces {d : Dialect} {f : SqlFunction} (h : IsPlainText (d.functionName f))
    (hps : Tidy .blank ps) : Tidy .blank (callPieces d f ps) :=
  (Tidy.text h).append (.parenthesized hps)

theorem tidy_columnPieces (qualify : Bool) (c : Column) (e : Edge) (he : e ≠ .quote) :
    Tidy e (c.pieces qualify) := by
  cases qualify
  · exact ⟨he, trivial⟩
  · exact ⟨he, by decide, .inr (by decide), by decide, trivial⟩

theorem tidy_columns (qualify : Bool) (cs : List Column) :
    ∀ ps ∈ cs.map (Column.pieces qualify), Tidy .blank ps :=
  List.forall_mem_map.2 fun c _ => tidy_columnPieces qualify c .blank (by decide)

theorem tidy_namePieces (t : Table) : Tidy .blank t.namePieces := by
  unfold Table.namePieces
  split
  · exact ⟨by decide, by decide, .inr (by decide), by decide, trivial⟩
  · exact ⟨by decide, trivial⟩

theorem tidy_sourcePieces (t : Table) : Tidy .blank t.sourcePieces := by
  unfold Table.sourcePieces
  refine (tidy_namePieces t).append ?_
  split
  · exact .text_cons (by decide) (by decide) ⟨by decide, trivial⟩
  · exact .nil

end Combination

/-! ### Texts with names of operators and numbers in them -/

/-- What a text shows at its start does not depend on what is appended to it. -/
theorem firstEdge_append {s : String} (hs : s.toList ≠ []) (t : String) :
    firstEdge (s ++ t) = firstEdge s := by
  simp [firstEdge, List.head?_append_of_ne_nil _ hs]

theorem Opens.append {s t : String} (hs : Opens s) (ht : IsPlainText t) : Opens (s ++ t) :=
  ⟨IsPlainText.append hs.1 ht, (firstEdge_append hs.1.1 t).trans hs.2⟩

theorem opens_closes_binaryOp (op : BinaryOp) :
    Opens (" " ++ op.sql ++ " ") ∧ Closes (" " ++ op.sql ++ " ") := by
  rcases op with op | ⟨ignoresCase, negated⟩ | op
  · cases op <;> decide
  · cases ignoresCase <;> cases negated <;> decide
  · cases op <;> decide

end Piece

/-! ### The parts of a select -/

section Parts

open Piece

variable {d : Dialect}

/-- An operand is written as a unit, or in parentheses. -/
theorem Expr.tidy_operand (hd : d.IsPlain) {e : Expr} {qualify : Bool}
    (h : Tidy .blank (e.pieces d qualify)) :
    Tidy .operator (enclosedIf (!e.isAtomic) (e.pieces d qualify)) := by
  have hcall : ∀ f arguments, Tidy .blank (callPieces d f arguments) →
      Tidy .operator (callPieces d f arguments) := by
    intro f arguments hps
    refine ⟨hps.1, .inr ?_, hps.2.2⟩
    obtain ⟨hne, hword⟩ := hd.functionName f
    have hfirst := hword _ (List.head_mem hne)
    simp [firstEdge, List.head?_eq_some_head hne, Edge.ofChar, hfirst]
  by_cases hatomic : e.isAtomic
  · rw [hatomic]
    change Tidy .operator (e.pieces d qualify)
    cases e with
    | column c => exact tidy_columnPieces qualify c .operator (by decide)
    | literal v type? => exact ⟨by decide, trivial⟩
    | rowCount => exact hcall _ _ h
    | valueCount distinct e => exact hcall _ _ h
    | apply f e => exact hcall _ _ h
    | orElse e fallback => exact hcall _ _ h
    | extremum f first second rest => exact hcall _ _ h
    | joinedText e separator => exact hcall _ _ h
    | _ => cases hatomic
  · rw [Bool.eq_false_iff.2 hatomic]
    exact TidyAnywhere.parenthesized h .operator

/-- A binary operator between tidy operands. -/
theorem tidy_binaryPieces {op : BinaryOp} {l r : Expr} {ps qs : List Piece}
    (hps : Tidy .blank ps) (hqs : Tidy .blank qs) : Tidy .blank (op.pieces d l r ps qs) := by
  have hplain : Tidy .blank (enclosedIf (!l.isAtomic) ps ++ .text (" " ++ op.sql ++ " ") ::
      enclosedIf (!r.isAtomic) qs) :=
    (hps.enclosedIf _).append
      (.text_cons (opens_closes_binaryOp op).1 (opens_closes_binaryOp op).2 (hqs.enclosedIf _))
  cases op with
  | compare op => exact hplain
  | arithmetic op => exact hplain
  | pattern m =>
    simp only [BinaryOp.pieces, PatternMatch.pieces]
    split
    · have hlower : Tidy .blank (.notice .ilikeEmulated :: .text "LOWER(" :: ps) :=
        Tidy.text_cons (by decide) hps
      refine (hlower.append (.text_cons ?_ ?_ hqs)).append (.text (by decide))
      · cases m.negated <;> decide
      · cases m.negated <;> decide
    · exact hplain

/-- The opening of a quantified comparison stands after anything and has anything after it. -/
theorem tidy_opening (op : Comparison) (quantifier : Quantifier) {ps : List Piece}
    (hps : Tidy .blank ps) : TidyAnywhere (quantifier.opening d op ++ ps) := by
  have hwritten : TidyAnywhere
      (.text (" " ++ op.sql ++ " " ++ quantifier.sql ++ " (") :: ps) := by
    refine .text_cons ?_ ?_ hps <;> cases op <;> cases quantifier <;> decide
  unfold Quantifier.opening
  split
  · exact hwritten
  · split
    · exact .text_cons (by decide) (by decide) hps
    · exact .text_cons (by decide) (by decide) hps
    · exact hwritten

theorem tidy_sortKeyPieces {e : Expr} {direction : Direction} {nulls? : Option NullPlacement}
    {ps : List Piece} (hps : Tidy .blank ps) :
    Tidy .blank (sortKeyPieces d e direction nulls? ps) := by
  have hdirection : TidyAnywhere [.text (" " ++ direction.sql)] :=
    .text (by cases direction <;> decide)
  have hsorted := hps.append hdirection
  cases nulls? with
  | none => exact hsorted
  | some nulls =>
    simp only [sortKeyPieces]
    split
    · exact hsorted.append (.text (by cases nulls <;> decide))
    · have hfirst : Tidy .blank (.notice .nullPlacementEmulated :: enclosedIf (!e.isAtomic) ps) :=
        hps.enclosedIf _
      refine hfirst.append (.text_cons ?_ ?_ hsorted)
      · cases nulls <;> decide
      · cases nulls <;> decide

theorem tidy_clausePieces {keyword : String} (hopens : Opens keyword) (hcloses : Closes keyword)
    {pieces? : Option (List Piece)} (h : ∀ ps ∈ pieces?, Tidy .blank ps) :
    TidyAnywhere (clausePieces keyword pieces?) := by
  cases pieces? with
  | none => exact .nil
  | some ps => exact .text_cons hopens hcloses (h ps rfl)

theorem tidy_orderPieces {keys : List (List Piece)} (h : ∀ ps ∈ keys, Tidy .blank ps) :
    TidyAnywhere (orderPieces keys) := by
  unfold orderPieces
  split
  · exact .nil
  · exact .text_cons (by decide) (by decide) (.commaSeparated h)

theorem tidy_pagePieces (hd : d.IsPlain) (limit? offset? : Option Nat) :
    TidyAnywhere (pagePieces d limit? offset?) := by
  have hnumber : ∀ (keyword : String) (n : Nat), Opens keyword →
      TidyAnywhere [.text (keyword ++ toString n)] :=
    fun keyword n h => .text (h.append (isPlainWord_toString n).isPlainText)
  refine .append ?_ ?_
  · rcases limit? with _ | n
    · rcases offset? with _ | n
      · exact .nil
      · cases hlimit : d.unboundedLimit? with
        | none => exact .nil
        | some s =>
          exact .text (Opens.append (by decide) (hd.unboundedLimit s hlimit))
    · exact hnumber " LIMIT " n (by decide)
  · cases offset? with
    | none => exact .nil
    | some n => exact hnumber " OFFSET " n (by decide)

theorem tidy_returningPieces (columns : List Column) :
    TidyAnywhere (returningPieces d columns) := by
  have hlist : TidyAnywhere
      (.text " RETURNING " :: commaSeparated (columns.map (Column.pieces false))) :=
    .text_cons (by decide) (by decide) (.commaSeparated (tidy_columns false columns))
  unfold returningPieces
  split
  · exact .nil
  · cases d.supportsReturning
    · exact hlist
    · exact hlist

end Parts

/-! ### Expressions, selects and statements -/

section Trees

open Piece

variable {d : Dialect} (hd : d.IsPlain)
include hd

theorem tidy_callPieces {f : SqlFunction} {ps : List Piece} (hps : Tidy .blank ps) :
    Tidy .blank (callPieces d f ps) :=
  .callPieces (hd.functionName f).isPlainText hps

theorem tidy_truthValue (b : Bool) : Tidy .blank [.text (d.booleanLiteral b)] :=
  .text (hd.booleanLiteral b).isPlainText

/-- An expression is tidy if its parts are. -/
theorem Expr.tidy_pieces_of_parts (e : Expr) (qualify : Bool)
    (parts : ∀ c ∈ e.children, Tidy .blank (c.pieces d qualify))
    (query : ∀ s, e.query? = some s → Tidy .blank (s.pieces d)) :
    Tidy .blank (e.pieces d qualify) := by
  cases e with
  | column c => exact tidy_columnPieces qualify c .blank (by decide)
  | literal v type? => exact ⟨by decide, trivial⟩
  | negation e =>
    exact ⟨by decide, .inl rfl, Expr.tidy_operand hd (parts e (by simp [Expr.children]))⟩
  | complement e =>
    exact Tidy.text_cons (by decide)
      ((parts e (by simp [Expr.children])).append (.text (by decide)))
  | nullTest e negated =>
    exact ((parts e (by simp [Expr.children])).enclosedIf _).append
      (.text (by cases negated <;> decide))
  | binary l op r =>
    exact tidy_binaryPieces (parts l (by simp [Expr.children])) (parts r (by simp [Expr.children]))
  | junction kind es =>
    unfold Expr.pieces
    split
    · exact tidy_truthValue hd _
    · rw [partPieces_eq]
      refine .separated ?_ ?_ (List.forall_mem_map.2 fun e he => (parts e he).enclosedIf _)
      · cases kind <;> decide
      · cases kind <;> decide
  | rowCount => exact tidy_callPieces hd (.text (by decide))
  | valueCount distinct e =>
    refine tidy_callPieces hd ?_
    cases distinct
    · exact parts e (by simp [Expr.children])
    · exact Tidy.text_cons (by decide) (parts e (by simp [Expr.children]))
  | apply f e => exact tidy_callPieces hd (parts e (by simp [Expr.children]))
  | orElse e fallback =>
    refine tidy_callPieces hd (.commaSeparated ?_)
    simpa [Expr.children] using parts
  | extremum f first second rest =>
    refine tidy_callPieces hd (.commaSeparated ?_)
    simpa [Expr.children, itemPieces_eq] using parts
  | joinedText e separator =>
    have he := parts e (by simp [Expr.children])
    refine tidy_callPieces hd ?_
    split
    · exact he.append (.text_cons (by decide) (by decide) ⟨by decide, trivial⟩)
    -- The separator is a parameter like any other argument.
    · refine .commaSeparated ?_
      simpa [Tidy] using he
  | listMembership e items negated =>
    unfold Expr.pieces
    split
    · exact tidy_truthValue hd _
    · refine (Tidy.append ((parts e (by simp [Expr.children])).enclosedIf _)
        (.text_cons ?_ ?_ (.commaSeparated ?_))).append (.text (by decide))
      · cases negated <;> decide
      · cases negated <;> decide
      · rw [itemPieces_eq]
        exact List.forall_mem_map.2 fun c hc => parts c (List.mem_cons_of_mem _ hc)
  | rowMembership e s negated =>
    refine (Tidy.append ((parts e (by simp [Expr.children])).enclosedIf _)
      (.text_cons ?_ ?_ (query s rfl))).append (.text (by decide))
    · cases negated <;> decide
    · cases negated <;> decide
  | range e low high negated =>
    have hlow := (parts low (by simp [Expr.children])).enclosedIf (!low.isAtomic)
    have hhigh := (parts high (by simp [Expr.children])).enclosedIf (!high.isAtomic)
    refine (Tidy.append ((parts e (by simp [Expr.children])).enclosedIf _)
      (.text_cons ?_ ?_ hlow)).append (.text_cons (by decide) (by decide) hhigh)
    · cases negated <;> decide
    · cases negated <;> decide
  | existence s negated =>
    refine (Tidy.text_cons ?_ (query s rfl)).append (.text (by decide))
    cases negated <;> decide
  | quantified e op quantifier s =>
    have he := (parts e (by simp [Expr.children])).enclosedIf (!e.isAtomic)
    rw [Expr.pieces, List.append_assoc, List.append_assoc]
    exact he.append (tidy_opening op quantifier ((query s rfl).append (.text (by decide))))

/-- A select is tidy if the expressions of its clauses are. -/
theorem Select.tidy_pieces_of_clauses (s : Select)
    (clauses : ∀ e ∈ s.clauseExprs, ∀ qualify, Tidy .blank (e.pieces d qualify)) :
    Tidy .blank (s.pieces d) := by
  obtain ⟨hprojections, hjoins, hfilter, hhaving, horder⟩ := s.forall_clauseExprs.1 clauses
  have hcondition : ∀ e? : Option Expr,
      (∀ e ∈ e?.toList, ∀ qualify, Tidy .blank (e.pieces d qualify)) →
        ∀ ps ∈ e?.map (Expr.pieces d s.qualifies), Tidy .blank ps := by
    rintro (_ | e) h
    · intro ps hps
      cases hps
    · rintro ps ⟨⟩
      exact h e (by simp) _
  have hcolumns : Tidy .blank (commaSeparated (resultColumns s.qualifies s.source
      (s.projections.map (Projection.pieces d s.qualifies)))) := by
    refine .commaSeparated ?_
    unfold resultColumns
    split
    · exact tidy_columns s.qualifies _
    · refine List.forall_mem_map.2 fun p hp => (hprojections p hp _).append ?_
      split
      · exact .text_cons (by decide) (by decide) ⟨by decide, trivial⟩
      · exact .nil
  have hselect : Tidy .blank (.text "SELECT " :: (if s.distinct then [.text "DISTINCT "] else []) ++
      commaSeparated (resultColumns s.qualifies s.source
        (s.projections.map (Projection.pieces d s.qualifies)))) := by
    refine Tidy.text_cons (by decide) ?_
    cases s.distinct
    · exact hcolumns
    · exact Tidy.text_cons (by decide) hcolumns
  have hsource : TidyAnywhere (.text " FROM " :: s.source.sourcePieces) :=
    .text_cons (by decide) (by decide) (tidy_sourcePieces s.source)
  have hjoin : TidyAnywhere (s.joins.flatMap (Join.pieces d s.qualifies)) := by
    refine .flatMap fun j hj => ?_
    cases j with
    | on kind t condition =>
      refine TidyAnywhere.append (.text_cons ?_ ?_ (tidy_sourcePieces t))
        (.text_cons (by decide) (by decide) (hjoins _ hj condition (by simp [Join.condition?]) _))
      · cases kind <;> decide
      · cases kind <;> decide
    | cross t => exact .text_cons (by decide) (by decide) (tidy_sourcePieces t)
  have hgroup : ∀ ps ∈ (if s.groupBy.isEmpty then none
      else some (commaSeparated (s.groupBy.map (Column.pieces s.qualifies)))), Tidy .blank ps := by
    split
    · intro ps hps
      cases hps
    · rintro ps ⟨⟩
      exact .commaSeparated (tidy_columns s.qualifies _)
  have hkeys : ∀ ps ∈ s.orderBy.map (SortKey.pieces d s.qualifies), Tidy .blank ps :=
    List.forall_mem_map.2 fun k hk => tidy_sortKeyPieces (horder k hk _)
  rw [Select.pieces_eq]
  exact (((((((hselect.append hsource).append hjoin).append
    (tidy_clausePieces (by decide) (by decide) (hcondition _ hfilter))).append
    (tidy_clausePieces (by decide) (by decide) hgroup)).append
    (tidy_clausePieces (by decide) (by decide) (hcondition _ hhaving))).append
    (tidy_orderPieces hkeys)).append (tidy_pagePieces hd _ _))

theorem Expr.tidy_pieces (e : Expr) (qualify : Bool) : Tidy .blank (e.pieces d qualify) :=
  Expr.induction (P := fun e => ∀ qualify, Tidy .blank (e.pieces d qualify))
    (Q := fun s => Tidy .blank (s.pieces d))
    (fun e parts query qualify =>
      e.tidy_pieces_of_parts hd qualify (fun c hc => parts c hc qualify) query)
    (Select.tidy_pieces_of_clauses hd) e qualify

theorem Select.tidy_pieces (s : Select) : Tidy .blank (s.pieces d) :=
  s.tidy_pieces_of_clauses hd fun e _ => e.tidy_pieces hd

theorem CompoundSelect.tidy_pieces (c : CompoundSelect) : Tidy .blank (c.pieces d) := by
  have hmembers : TidyAnywhere (memberPieces d c.rest) := by
    refine .flatMap fun m _ => .text_cons ?_ ?_ (m.2.tidy_pieces hd)
    · cases m.1 <;> decide
    · cases m.1 <;> decide
  have hkeys : ∀ ps ∈ sortPieces d false c.orderBy, Tidy .blank ps := by
    rw [sortPieces_eq]
    exact List.forall_mem_map.2 fun k _ => tidy_sortKeyPieces (k.expr.tidy_pieces hd false)
  exact (((c.first.tidy_pieces hd).append hmembers).append (tidy_orderPieces hkeys)).append
    (tidy_pagePieces hd _ _)

theorem Insert.tidy_pieces (i : Insert) : Tidy .blank (i.pieces d) := by
  have hrow : ∀ row : List Expr, Tidy .blank (rowPieces d row) := by
    intro row
    refine TidyAnywhere.parenthesized (.commaSeparated ?_) .blank
    rw [itemPieces_eq]
    exact List.forall_mem_map.2 fun e _ => e.tidy_pieces hd false
  refine ((Tidy.text_cons (by decide) (tidy_namePieces i.table)).append
    (.text_cons (by decide) (by decide) (.commaSeparated (tidy_columns false _)))).append
    (.text_cons (by decide) (by decide) (.commaSeparated ?_)) |>.append
    (tidy_returningPieces _)
  exact List.forall_mem_map.2 fun row _ => hrow row

/-- The condition of a statement on one table. -/
theorem tidy_filterPieces (e? : Option Expr) :
    TidyAnywhere (clausePieces " WHERE " (conditionPieces d false e?)) := by
  refine tidy_clausePieces (by decide) (by decide) ?_
  cases e? with
  | none => nofun
  | some e =>
    rintro ps ⟨⟩
    exact e.tidy_pieces hd false

theorem Update.tidy_pieces (u : Update) : Tidy .blank (u.pieces d) := by
  have hassignment : ∀ a : Column × Expr, Tidy .blank (assignmentPieces d a) := fun a =>
    (tidy_columnPieces false a.1 .blank (by decide)).append
      (.text_cons (by decide) (by decide) (a.2.tidy_pieces hd false))
  refine (((Tidy.text_cons (by decide) (tidy_sourcePieces u.table)).append
    (.text_cons (by decide) (by decide) (.commaSeparated ?_))).append
    (tidy_filterPieces hd u.filter?)).append (tidy_returningPieces _)
  exact List.forall_mem_map.2 fun a _ => hassignment a

theorem Delete.tidy_pieces (x : Delete) : Tidy .blank (x.pieces d) :=
  ((Tidy.text_cons (by decide) (tidy_sourcePieces x.table)).append
    (tidy_filterPieces hd x.condition?)).append (tidy_returningPieces _)

/-- **The layout of a statement is tidy**, whatever names and values are in it. -/
theorem Statement.tidy_pieces (s : Statement) : Tidy .blank (s.pieces d) := by
  cases s with
  | select s => exact s.tidy_pieces hd
  | compound c => exact c.tidy_pieces hd
  | insert i _ => exact i.tidy_pieces hd
  | update u _ => exact u.tidy_pieces hd
  | delete x _ => exact x.tidy_pieces hd

end Trees

/-! ### The dialects -/

namespace Dialect

theorem isPlain_generic : generic.IsPlain where
  quote := by decide
  functionName f := by cases f <;> decide
  booleanLiteral b := by cases b <;> decide
  unboundedLimit := nofun

theorem isPlain_postgres : postgres.IsPlain where
  quote := by decide
  functionName f := by cases f <;> decide
  booleanLiteral b := by cases b <;> decide
  unboundedLimit := nofun

theorem isPlain_sqlite : sqlite.IsPlain where
  quote := by decide
  functionName f := by cases f <;> decide
  booleanLiteral b := by cases b <;> decide
  unboundedLimit s h := by
    cases h
    decide

theorem isPlain_mysql : mysql.IsPlain where
  quote := by decide
  functionName f := by cases f <;> decide
  booleanLiteral b := by cases b <;> decide
  unboundedLimit s h := by
    cases h
    decide

end Dialect

end TypedSql
