import TypedSql.Proofs.Classes
import TypedSql.Proofs.Parentheses
import TypedSql.Proofs.SetOperators

/-!
# Result columns in the text

The number of result columns of a select is asked of the tree (`Select.outputWidth`), its classes
are listed from the tree (`Select.outputClasses`), and the text lists one item for each. `itemCount`
reads the number off the tokens of a text: it counts the commas outside of parentheses before the
first `FROM` there.

`Select.itemCount_tokens` says that the two agree for every select, and `writesItems_of_built` what
that means for whatever is built: the members of a compound select write as many items as it has
result columns and no clauses of an order or of limits, and a subquery that is compared with an
expression writes one item.
-/

namespace TypedSql

open Piece (Avoids)

/-- The number of items that the text of a select writes before its first source. -/
def itemCount (ts : List (Token Nat)) : Nat :=
  ((outsideFrom 0 ts).takeWhile (· ≠ .word "FROM")).count (.mark ',') + 1

/-- Some tokens have the words of an order or of limits outside of parentheses. -/
def HasPagingWords (ts : List (Token Nat)) : Prop :=
  ∃ t ∈ pagingWords, t ∈ outsideFrom 0 ts

/-- Tokens before others may be left out where they have none of the words. -/
theorem exists_mem_append_iff {ws out rest : List (Token Nat)} (h : ∀ t ∈ out, t ∉ ws) :
    (∃ t ∈ ws, t ∈ out ++ rest) ↔ ∃ t ∈ ws, t ∈ rest := by
  refine exists_congr fun t => and_congr_right fun ht => ?_
  have hout : t ∉ out := fun hmem => h t hmem ht
  simp [hout]

namespace Select

/-- The layouts of the result columns of a select. -/
def resultPieces (d : Dialect) (s : Select) : List (List Piece) :=
  resultColumns s.qualifies s.source (s.projections.map (Projection.pieces d s.qualifies))

/-- The layout of the clauses of a select from its first source to its conditions on groups. -/
def bodyPieces (d : Dialect) (s : Select) : List Piece :=
  s.source.sourcePieces ++ s.joins.flatMap (Join.pieces d s.qualifies) ++
    clausePieces " WHERE " (s.filter?.map (Expr.pieces d s.qualifies)) ++
    clausePieces " GROUP BY "
      (if s.groupBy.isEmpty then none
        else some (Piece.commaSeparated (s.groupBy.map (Column.pieces s.qualifies)))) ++
    clausePieces " HAVING " (s.having?.map (Expr.pieces d s.qualifies))

/-- The layout of the order and the limits of a select. -/
def pagingPieces (d : Dialect) (s : Select) : List Piece :=
  orderPieces (s.orderBy.map (SortKey.pieces d s.qualifies)) ++ pagePieces d s.limit? s.offset?

/-- **What the text of a select shows outside of parentheses**: one comma less than it has result
columns, before the first `FROM`, and the words of an order or of limits exactly if it has some. -/
def ShowsClauses (s : Select) (ts : List (Token Nat)) : Prop :=
  ∃ items rest, Shows ts (items ++ .word "FROM" :: rest) ∧
    (∀ t ∈ items, t ∈ breaks → t = .mark ',') ∧ items.count (.mark ',') + 1 = s.outputWidth ∧
    ((∃ t ∈ pagingWords, t ∈ rest) ↔ s.hasPaging = true)

theorem pieces_eq_resultPieces (d : Dialect) (s : Select) :
    s.pieces d =
      .text "SELECT " :: (if s.distinct then [.text "DISTINCT "] else []) ++
        Piece.commaSeparated (s.resultPieces d) ++ .text " FROM " :: s.bodyPieces d ++
        s.pagingPieces d := by
  rw [pieces_eq]
  simp [resultPieces, bodyPieces, pagingPieces]

/-- A select has a layout for each of its result columns. -/
theorem length_resultPieces (d : Dialect) (s : Select) :
    (s.resultPieces d).length = s.outputWidth := by
  unfold resultPieces resultColumns outputWidth
  cases s.projections <;> simp

theorem hasPaging_iff (s : Select) :
    s.hasPaging = true ↔ s.orderBy ≠ [] ∨ s.limit?.isSome = true ∨ s.offset?.isSome = true := by
  simp [hasPaging, or_assoc]

/-- Without an order and limits, nothing is written after the other clauses. -/
theorem pagingPieces_eq_nil (s : Select) (h : s.hasPaging = false) (d : Dialect) :
    s.pagingPieces d = [] := by
  simp only [hasPaging, Bool.or_eq_false_iff, Bool.not_eq_false', List.isEmpty_iff,
    Option.isSome_eq_false_iff, Option.isNone_iff_eq_none] at h
  obtain ⟨⟨horder, hlimit⟩, hoffset⟩ := h
  rw [pagingPieces, horder, hlimit, hoffset]
  rfl

theorem outputWidth_pos (s : Select) : 0 < s.outputWidth := by
  unfold outputWidth
  split
  · simpa [Table.columns, List.length_pos_iff] using s.source.decls_ne_nil
  · rename_i hne
    simpa [List.length_pos_iff] using hne

end Select

/-! ### The clauses of a select -/

section Clauses

variable {k : DialectKind}

/-- Items with commas between them show one comma less than they are. -/
theorem Piece.shows_commaSeparated {items : List (List Piece)} (hne : items ≠ [])
    (h : ∀ ps ∈ items, Avoids k breaks ps) (n : Nat) :
    ∃ out, Shows (tokens k.dialect n (commaSeparated items)) out ∧
      (∀ t ∈ out, t ∈ breaks → t = .mark ',') ∧ out.count (.mark ',') + 1 = items.length := by
  have hcomma : lex k.dialect.identifierQuote ", " = [.mark ','] := by
    cases k <;> decide
  have hcount : ∀ out : List (Token Nat), (∀ t ∈ out, t ∉ breaks) → out.count (.mark ',') = 0 :=
    fun out hout => List.count_eq_zero.2 fun hmem => hout _ hmem (.head _)
  unfold commaSeparated
  fun_induction Piece.separated ", " items generalizing n with
  | case1 => exact absurd rfl hne
  | case2 ps =>
    obtain ⟨out, hshows, hout⟩ := h ps (by simp) n
    exact ⟨out, hshows, fun t ht hmem => absurd hmem (hout t ht), by simp [hcount out hout]⟩
  | case3 ps qs rest ih =>
    obtain ⟨hps, hrest⟩ := List.forall_mem_cons.1 h
    obtain ⟨out, hshows, hout⟩ := hps n
    obtain ⟨out', hshows', hout', hlength⟩ :=
      ih (List.cons_ne_nil _ _) hrest (n + (parameters ps).length)
    refine ⟨out ++ .mark ',' :: out', ?_, ?_, ?_⟩
    · rw [tokens_append, tokens, hcomma]
      exact hshows.append ((Shows.self (by decide)).append hshows')
    · refine List.forall_mem_append.2 ⟨fun t ht hmem => absurd hmem (hout t ht), ?_⟩
      exact List.forall_mem_cons.2 ⟨fun _ => rfl, hout'⟩
    · rw [List.count_append, hcount out hout, List.count_cons_self, List.length_cons, ← hlength]
      omega

/-- A clause of a keyword and a number shows the two. -/
theorem shows_numbered {keyword w : String}
    (hrun : Lexer.run k.dialect.identifierQuote .idle keyword.toList = ([.word w], .idle))
    (m n : Nat) : Shows (Piece.tokens k.dialect n [.text (keyword ++ toString m)])
      [.word w, .word (toString m)] := by
  rw [Piece.tokens, Piece.tokens, lex_numbered k.isPlain.quote hrun, List.append_nil]
  exact .self (by simp [parentheses])

/-- A limit or an offset is shown exactly where there is one. -/
theorem shows_pagePieces (limit? offset? : Option Nat) (n : Nat) :
    ∃ out, Shows (Piece.tokens k.dialect n (pagePieces k.dialect limit? offset?)) out ∧
      ((∃ t ∈ pagingWords, t ∈ out) ↔ limit?.isSome = true ∨ offset?.isSome = true) := by
  have hlimit : ∀ m n, Shows (Piece.tokens k.dialect n [.text (" LIMIT " ++ toString m)])
      [.word "LIMIT", .word (toString m)] := shows_numbered (by cases k <;> rfl)
  have hoffset : ∀ m n, Shows (Piece.tokens k.dialect n [.text (" OFFSET " ++ toString m)])
      [.word "OFFSET", .word (toString m)] := shows_numbered (by cases k <;> rfl)
  rcases limit? with _ | m <;> rcases offset? with _ | m'
  · exact ⟨[], .nil, by simp⟩
  · -- An offset alone may bring a limit, which shows a word of its own.
    have hunbounded : ∀ n, ∃ out, Shows (Piece.tokens k.dialect n
        (k.dialect.unboundedLimit?.map fun s => Piece.text (" LIMIT " ++ s)).toList) out := by
      intro n
      cases hs : k.dialect.unboundedLimit? with
      | none => exact ⟨[], .nil⟩
      | some s =>
        have hfree : Piece.IsFree k [] (" LIMIT " ++ s) := by
          cases k <;> cases hs <;> decide
        exact ⟨_, Piece.shows_text hfree n⟩
    obtain ⟨out, hshows⟩ := hunbounded n
    refine ⟨out ++ [.word "OFFSET", .word (toString m')], ?_, by simp [pagingWords]⟩
    rw [pagePieces, Piece.tokens_append]
    exact hshows.append (hoffset m' _)
  · exact ⟨_, hlimit m n, by simp [pagingWords]⟩
  · refine ⟨[.word "LIMIT", .word (toString m)] ++ [.word "OFFSET", .word (toString m')], ?_,
      by simp [pagingWords]⟩
    rw [show pagePieces k.dialect (some m) (some m') =
      [.text (" LIMIT " ++ toString m)] ++ [.text (" OFFSET " ++ toString m')] from rfl,
      Piece.tokens_append]
    exact (hlimit m n).append (hoffset m' _)

/-- A sort key has matching parentheses if its expression has. -/
theorem SortKey.closed_pieces {qualify : Bool} (key : SortKey)
    (hexpr : Avoids k breaks (key.expr.pieces k.dialect qualify)) :
    Avoids k [] (key.pieces k.dialect qualify) := by
  obtain ⟨e, direction, nulls?⟩ := key
  have hsorted : Avoids k [] (e.pieces k.dialect qualify ++ [.text (" " ++ direction.sql)]) :=
    hexpr.closed.append (.text (by cases k <;> cases direction <;> decide))
  cases nulls? with
  | none => exact hsorted
  | some nulls =>
    simp only [SortKey.pieces, sortKeyPieces]
    split
    · exact hsorted.append (.text (by cases k <;> cases nulls <;> decide))
    · refine (Avoids.notice_cons _ (hexpr.enclosedIf _).closed).append (.text_cons ?_ hsorted)
      cases k <;> cases nulls <;> decide

/-- An order is shown exactly where there are sort keys. -/
theorem shows_orderPieces {keys : List (List Piece)} (h : ∀ ps ∈ keys, Avoids k [] ps) (n : Nat) :
    ∃ out, Shows (Piece.tokens k.dialect n (orderPieces keys)) out ∧
      (keys = [] → out = []) ∧ (keys ≠ [] → .word "ORDER" ∈ out) := by
  cases keys with
  | nil => exact ⟨[], .nil, fun _ => rfl, absurd rfl⟩
  | cons key keys =>
    have hlex : lex k.dialect.identifierQuote " ORDER BY " = [.word "ORDER", .word "BY"] := by
      cases k <;> decide
    obtain ⟨out, hshows, -⟩ := Avoids.commaSeparated h n
    refine ⟨[.word "ORDER", .word "BY"] ++ out, ?_, nofun, fun _ => by simp⟩
    rw [orderPieces, List.isEmpty_cons, if_neg Bool.false_ne_true, Piece.tokens, hlex]
    exact (Shows.self (by decide)).append hshows

/-- An order and limits are shown exactly where there are some. -/
theorem shows_pagingPieces (qualify : Bool) (keys : List SortKey) (limit? offset? : Option Nat)
    (h : ∀ key ∈ keys, Avoids k breaks (key.expr.pieces k.dialect qualify)) (n : Nat) :
    ∃ out, Shows (Piece.tokens k.dialect n
        (orderPieces (keys.map (SortKey.pieces k.dialect qualify)) ++
          pagePieces k.dialect limit? offset?)) out ∧
      ((∃ t ∈ pagingWords, t ∈ out) ↔
        keys ≠ [] ∨ limit?.isSome = true ∨ offset?.isSome = true) := by
  have hkeys : ∀ ps ∈ keys.map (SortKey.pieces k.dialect qualify), Avoids k [] ps :=
    List.forall_mem_map.2 fun key hkey => key.closed_pieces (h key hkey)
  obtain ⟨order, hshows, hnone, hsome⟩ := shows_orderPieces hkeys n
  rw [List.map_eq_nil_iff] at hnone
  rw [Ne, List.map_eq_nil_iff] at hsome
  obtain ⟨page, hshows', hpage⟩ := shows_pagePieces (k := k) limit? offset?
    (n + (Piece.parameters (orderPieces (keys.map (SortKey.pieces k.dialect qualify)))).length)
  refine ⟨order ++ page, ?_, ?_⟩
  · rw [Piece.tokens_append]
    exact hshows.append hshows'
  · by_cases hempty : keys = []
    · simp only [hnone hempty, List.nil_append, hpage, hempty, ne_eq, not_true_eq_false, false_or]
    · exact iff_of_true ⟨_, .head _, List.mem_append_left _ (hsome hempty)⟩ (.inl hempty)

theorem avoids_conditionClause {keyword : String} (hkeyword : keyword ∈ Piece.calmTexts)
    {layout : Expr → List Piece} {e? : Option Expr}
    (h : ∀ e ∈ e?.toList, Avoids k breaks (layout e)) :
    Avoids k breaks (clausePieces keyword (e?.map layout)) := by
  cases e? with
  | none => exact .nil
  | some e => exact .text_cons (Piece.isFree_of_mem hkeyword) (h e (by simp))

end Clauses

/-! ### The text of a select -/

namespace Select

section Text

variable {k : DialectKind} {s : Select}

theorem avoids_resultPieces
    (h : ∀ p ∈ s.projections, Avoids k breaks (p.expr.pieces k.dialect s.qualifies)) :
    ∀ ps ∈ s.resultPieces k.dialect, Avoids k breaks ps := by
  unfold resultPieces resultColumns
  split
  · exact List.forall_mem_map.2 fun c _ => Piece.avoids_columnPieces s.qualifies c
  · refine List.forall_mem_map.2 fun p hp => (h p hp).append ?_
    split
    · exact .text_cons (Piece.isFree_of_mem (by decide)) (Piece.avoids_identifier _)
    · exact .nil

theorem avoids_bodyPieces
    (h : ∀ e ∈ s.clauseExprs, Avoids k breaks (e.pieces k.dialect s.qualifies)) :
    Avoids k pagingWords (s.bodyPieces k.dialect) := by
  obtain ⟨-, hjoins, hfilter, hhaving, -⟩ := s.forall_clauseExprs.1 h
  have hjoin : Avoids k breaks (s.joins.flatMap (Join.pieces k.dialect s.qualifies)) := by
    refine .flatMap fun j hj => ?_
    cases j with
    | on kind t condition =>
      have hkind : Piece.IsFree k breaks (" " ++ kind.sql ++ " ") := by
        cases k <;> cases kind <;> decide
      exact (Avoids.text_cons hkind (Piece.avoids_sourcePieces t)).append
        (.text_cons (Piece.isFree_of_mem (by decide))
          (hjoins _ hj condition (by simp [Join.condition?])))
    | cross t =>
      exact .text_cons (Piece.isFree_of_mem (by decide)) (Piece.avoids_sourcePieces t)
  have hgroup : Avoids k pagingWords (clausePieces " GROUP BY "
      (if s.groupBy.isEmpty then none
        else some (Piece.commaSeparated (s.groupBy.map (Column.pieces s.qualifies))))) := by
    split
    · exact .nil
    · refine .text_cons (by cases k <;> decide) (.separated (by cases k <;> decide) ?_)
      exact List.forall_mem_map.2 fun c _ =>
        (Piece.avoids_columnPieces s.qualifies c).mono (by simp [breaks])
  have hpaging : pagingWords ⊆ breaks := by simp [breaks]
  exact ((((((Piece.avoids_sourcePieces s.source).append hjoin).append
    (avoids_conditionClause (by decide) hfilter)).mono hpaging).append hgroup).append
    ((avoids_conditionClause (by decide) hhaving).mono hpaging))

/-- The text of a select shows its clauses if its expressions show nothing of the like. -/
theorem shows_tokens_of_clauses (s : Select)
    (h : ∀ e ∈ s.clauseExprs, Avoids k breaks (e.pieces k.dialect s.qualifies)) (n : Nat) :
    s.ShowsClauses (Piece.tokens k.dialect n (s.pieces k.dialect)) := by
  obtain ⟨hprojections, -, -, -, horder⟩ := s.forall_clauseExprs.1 h
  let start : List Piece := .text "SELECT " :: if s.distinct then [.text "DISTINCT "] else []
  have hstart : Avoids k breaks start := by
    refine .text_cons (by cases k <;> decide) ?_
    split
    · exact .text (Piece.isFree_of_mem (by decide))
    · exact .nil
  have hne : s.resultPieces k.dialect ≠ [] := by
    rw [← List.length_pos_iff, length_resultPieces]
    exact s.outputWidth_pos
  have hfrom : lex k.dialect.identifierQuote " FROM " = [.word "FROM"] := by
    cases k <;> decide
  let afterStart := n + (Piece.parameters start).length
  let afterItems := afterStart +
    (Piece.parameters (Piece.commaSeparated (s.resultPieces k.dialect))).length
  let afterBody := afterItems + (Piece.parameters (s.bodyPieces k.dialect)).length
  obtain ⟨out, hshows, hout⟩ := hstart n
  obtain ⟨items, hitems, hcommas, hcount⟩ :=
    Piece.shows_commaSeparated hne (avoids_resultPieces hprojections) afterStart
  obtain ⟨body, hbody, hcalm⟩ := avoids_bodyPieces h afterItems
  obtain ⟨paging, hpaging, hiff⟩ :=
    shows_pagingPieces s.qualifies s.orderBy s.limit? s.offset? horder afterBody
  refine ⟨out ++ items, body ++ paging, ?_, ?_, ?_, ?_⟩
  · have htokens : Piece.tokens k.dialect n (s.pieces k.dialect) =
        Piece.tokens k.dialect n start ++
          Piece.tokens k.dialect afterStart (Piece.commaSeparated (s.resultPieces k.dialect)) ++
          ([.word "FROM"] ++ (Piece.tokens k.dialect afterItems (s.bodyPieces k.dialect) ++
            Piece.tokens k.dialect afterBody (s.pagingPieces k.dialect))) := by
      rw [pieces_eq_resultPieces]
      simp [start, afterStart, afterItems, afterBody, Piece.tokens, Piece.tokens_append, hfrom,
        Piece.parameters, Piece.parameter?, List.filterMap_cons, Nat.add_assoc]
    rw [htokens]
    exact (hshows.append hitems).append ((Shows.self (by decide)).append (hbody.append hpaging))
  · exact List.forall_mem_append.2 ⟨fun t ht hmem => absurd hmem (hout t ht), hcommas⟩
  · have hzero : out.count (.mark ',') = 0 :=
      List.count_eq_zero.2 fun hmem => hout _ hmem (.head _)
    rw [List.count_append, hzero, Nat.zero_add, hcount, length_resultPieces]
  · rw [hasPaging_iff, ← hiff, exists_mem_append_iff hcalm]

end Text

end Select

section Texts

variable {k : DialectKind}

/-- Outside of parentheses, an expression has nothing that could end a result column. -/
theorem Expr.avoids_breaks (e : Expr) (qualify : Bool) :
    Avoids k breaks (e.pieces k.dialect qualify) := by
  refine Expr.induction
    (P := fun e => ∀ qualify, Avoids k breaks (e.pieces k.dialect qualify))
    (Q := fun s => Avoids k [] (s.pieces k.dialect))
    (fun e children query qualify => ?_) (fun s clauses n => ?_) e qualify
  · exact e.avoids_breaks_of_parts qualify (fun c hc => children c hc qualify) query
  · obtain ⟨_, _, hshows, -⟩ :=
      s.shows_tokens_of_clauses (fun e he => clauses e he s.qualifies) n
    exact ⟨_, hshows, fun _ _ => List.not_mem_nil⟩

namespace Select

theorem shows_tokens (s : Select) (n : Nat) :
    s.ShowsClauses (Piece.tokens k.dialect n (s.pieces k.dialect)) :=
  s.shows_tokens_of_clauses (fun e _ => e.avoids_breaks s.qualifies) n

/-- **A select writes as many items as it has result columns**, whatever comes after it. -/
theorem itemCount_tokens_append (s : Select) (n : Nat) (us : List (Token Nat)) :
    itemCount (Piece.tokens k.dialect n (s.pieces k.dialect) ++ us) = s.outputWidth := by
  obtain ⟨items, rest, hshows, hcommas, hcount, -⟩ := s.shows_tokens (k := k) n
  have hitems : ∀ t ∈ items, decide (t ≠ .word "FROM") = true := by
    refine fun t ht => decide_eq_true ?_
    rintro rfl
    exact absurd (hcommas _ ht (by decide)) (by decide)
  rw [itemCount, hshows.outside, List.append_assoc, List.takeWhile_append_of_pos hitems,
    List.cons_append, List.takeWhile_cons_of_neg (by simp), List.append_nil, hcount]

theorem itemCount_tokens (s : Select) (n : Nat) :
    itemCount (Piece.tokens k.dialect n (s.pieces k.dialect)) = s.outputWidth := by
  simpa using s.itemCount_tokens_append (k := k) n []

/-- The comma between the arguments of a call separates no items. -/
example : itemCount (lex '"' "SELECT \"price\", COALESCE(\"price\", 0) FROM \"goods\"") = 2 := by
  decide

/-- A select writes an order or limits exactly if it has some. -/
theorem hasPagingWords_tokens (s : Select) (n : Nat) :
    HasPagingWords (Piece.tokens k.dialect n (s.pieces k.dialect)) ↔ s.hasPaging = true := by
  obtain ⟨items, rest, hshows, hcommas, -, hpaging⟩ := s.shows_tokens (k := k) n
  have hitems : ∀ t ∈ items ++ [.word "FROM"], t ∉ pagingWords := by
    refine List.forall_mem_append.2 ⟨fun t ht hmem => ?_, by decide⟩
    obtain rfl := hcommas t ht (List.mem_cons_of_mem _ (List.mem_cons_of_mem _ hmem))
    exact absurd hmem (by decide)
  rw [HasPagingWords, hshows.outsideFrom_zero, List.append_cons, exists_mem_append_iff hitems,
    hpaging]

/-- A select without an order and limits has none of their words. -/
theorem avoids_pagingWords {s : Select} (h : s.hasPaging = false) :
    Avoids k pagingWords (s.pieces k.dialect) := by
  intro n
  obtain ⟨_, _, hshows, -⟩ := s.shows_tokens (k := k) n
  refine ⟨_, hshows, fun t ht hmem => ?_⟩
  have hwords : HasPagingWords (Piece.tokens k.dialect n (s.pieces k.dialect)) :=
    ⟨t, hmem, hshows.outsideFrom_zero ▸ ht⟩
  exact absurd ((s.hasPagingWords_tokens n).1 hwords) (by simp [h])

/-- A select has a class for each of its result columns and writes an item for each, in every
dialect between `SELECT` and its first source. -/
structure WritesItems (s : Select) : Prop where
  classes : s.outputClasses.length = s.outputWidth
  layouts : ∀ d, (s.resultPieces d).length = s.outputWidth
  pieces : ∀ d, s.pieces d =
    .text "SELECT " :: (if s.distinct then [.text "DISTINCT "] else []) ++
      Piece.commaSeparated (s.resultPieces d) ++ .text " FROM " :: s.bodyPieces d ++
      s.pagingPieces d
  items : ∀ k : DialectKind, itemCount (lex k.dialect.identifierQuote
    ((Statement.select s).compile k.dialect).sql) = s.outputWidth

theorem writesItems (s : Select) : s.WritesItems where
  classes := s.length_outputClasses
  layouts := fun d => s.length_resultPieces d
  pieces := fun d => s.pieces_eq_resultPieces d
  items := fun k => by
    rw [Statement.lex_compile k.isPlain]
    exact s.itemCount_tokens 1

end Select

end Texts

/-! ### The members of a compound select -/

namespace CompoundSelect

variable {k : DialectKind} {tables : Set Table} {c : CompoundSelect}

/-- A select can be a member: it has as many result columns as the compound select, and no order and
no limits. -/
def Admits (c : CompoundSelect) (s : Select) : Prop :=
  s.outputWidth = c.outputWidth ∧ s.hasPaging = false

theorem admits_of_ofSelect {s : Select} (h : ofSelect s = .ok c) :
    ∀ member ∈ c.members, c.Admits member := by
  unfold ofSelect at h
  split at h
  · cases h
  · rename_i hpaging
    cases h
    exact List.forall_mem_singleton.2 ⟨rfl, by simpa using hpaging⟩

theorem admits_of_combine {c' : CompoundSelect} {op : SetOperator} {member : Select}
    (hc : ∀ s ∈ c.members, c.Admits s) (h : c.combine op member = .ok c') :
    ∀ s ∈ c'.members, c'.Admits s := by
  unfold combine at h
  split at h
  · cases h
  · rename_i hpaging
    split at h
    · rename_i hwidth
      cases h
      have hmembers := List.forall_mem_append.2
        ⟨hc, List.forall_mem_singleton.2 (⟨hwidth.symm, by simpa using hpaging⟩ : c.Admits member)⟩
      simpa [members, Admits, outputWidth] using hmembers
    · cases h

/-- Every way to build a compound select keeps its members of one width and without paging. -/
theorem Built.admits (h : c.Built tables) : ∀ s ∈ c.members, c.Admits s := by
  induction h with
  | ofSelect hs h => exact admits_of_ofSelect h
  | combine hc hmember h ih => exact admits_of_combine ih h
  | sort hc hk h ih =>
    obtain ⟨-, rfl⟩ := sort_eq_ok h
    exact ih
  | limit n hc ih => exact ih
  | offset n hc ih => exact ih

/-- The text of a compound select whose members have no order and no limits has the words of such
clauses exactly if it has some itself. -/
theorem hasPagingWords_compile (h : ∀ s ∈ c.members, s.hasPaging = false) :
    HasPagingWords (lex k.dialect.identifierQuote
        ((Statement.compound c).compile k.dialect).sql) ↔
      c.orderBy ≠ [] ∨ c.limit?.isSome = true ∨ c.offset?.isSome = true := by
  obtain ⟨hfirst, hrest⟩ := List.forall_mem_cons.1 h
  have hoperator : ∀ op : SetOperator, Piece.IsFree k pagingWords (" " ++ op.sql ++ " ") := by
    cases k <;> intro op <;> cases op <;> decide
  have hmembers : Avoids k pagingWords
      (c.first.pieces k.dialect ++ memberPieces k.dialect c.rest) :=
    (Select.avoids_pagingWords hfirst).append (.flatMap fun m hm => .text_cons (hoperator m.1)
      (Select.avoids_pagingWords (hrest m.2 (List.mem_map_of_mem hm))))
  obtain ⟨out, hshows, hcalm⟩ := hmembers 1
  obtain ⟨paging, hpaging, hiff⟩ := shows_pagingPieces (k := k) false c.orderBy c.limit? c.offset?
    (fun key _ => key.expr.avoids_breaks false)
    (1 + (Piece.parameters (c.first.pieces k.dialect ++ memberPieces k.dialect c.rest)).length)
  rw [Statement.lex_compile k.isPlain, Statement.pieces, CompoundSelect.pieces, sortPieces_eq,
    List.append_assoc, Piece.tokens_append, HasPagingWords,
    (hshows.append hpaging).outsideFrom_zero, ← hiff, exists_mem_append_iff hcalm]

/-- The members of a compound select write as many items as it has result columns. None of them
writes an order or limits, so that those of the text are the ones of the compound select. -/
structure WritesItems (c : CompoundSelect) : Prop where
  layouts : ∀ s ∈ c.members, ∀ d,
    (s.resultPieces d).length = c.outputWidth ∧ s.pagingPieces d = []
  noPaging : ∀ s ∈ c.members, ∀ (k : DialectKind) (n : Nat),
    ¬ HasPagingWords (Piece.tokens k.dialect n (s.pieces k.dialect))
  paging : ∀ k : DialectKind, HasPagingWords (lex k.dialect.identifierQuote
      ((Statement.compound c).compile k.dialect).sql) ↔
    c.orderBy ≠ [] ∨ c.limit?.isSome = true ∨ c.offset?.isSome = true
  items : ∀ k : DialectKind, ∃ text texts, segments (lex k.dialect.identifierQuote
      ((Statement.compound c).compile k.dialect).sql) = (text, texts) ∧
    List.Forall₂ (fun s ts => s.IsTextOf k.dialect ts ∧ itemCount ts = c.outputWidth) c.members
      (text :: texts.map Prod.snd)

theorem Built.writesItems (h : c.Built tables) : c.WritesItems where
  layouts := fun s hs d => by
    obtain ⟨hwidth, hpaging⟩ := h.admits s hs
    exact ⟨by rw [s.length_resultPieces, hwidth], s.pagingPieces_eq_nil hpaging d⟩
  noPaging := fun s hs k n => by
    simp [s.hasPagingWords_tokens, (h.admits s hs).2]
  paging := fun k => hasPagingWords_compile fun s hs => (h.admits s hs).2
  items := fun k => by
    obtain ⟨text, texts, hsegments, -, htexts⟩ := c.segments_compile k
    refine ⟨text, texts, hsegments, ((List.forall₂_and_left _ _).2 ⟨h.admits, htexts⟩).imp ?_⟩
    rintro s ts ⟨hadmits, htext⟩
    refine ⟨htext, ?_⟩
    obtain ⟨n, us, rfl⟩ := htext
    rw [s.itemCount_tokens_append, hadmits.1]

end CompoundSelect

/-! ### Subqueries beside expressions -/

namespace Expr

/-- The subquery whose rows an expression is compared with. -/
def compared? : Expr → Option Select
  | .rowMembership _ query _ | .quantified _ _ _ query => some query
  | _ => none

/-- A subquery beside an expression is part of its text and writes one item there. -/
def ComparesOneItem (e : Expr) : Prop :=
  ∀ s, e.compared? = some s →
    (∀ d qualify, (s.resultPieces d).length = 1 ∧ s.pieces d <:+: e.pieces d qualify) ∧
      ∀ (k : DialectKind) (n : Nat),
        itemCount (Piece.tokens k.dialect n (s.pieces k.dialect)) = 1

theorem FitsSubquery.outputWidth_eq_one {e : Expr} {s : Select} (h : e.FitsSubquery s) :
    s.outputWidth = 1 := by
  obtain ⟨found?, hclasses, -⟩ := h
  rw [← s.length_outputClasses, hclasses, List.length_singleton]

/-- A subquery is written as a whole between what comes before and after it. -/
theorem infix_pieces_of_compared {e : Expr} {s : Select} (h : e.compared? = some s) (d : Dialect)
    (qualify : Bool) : s.pieces d <:+: e.pieces d qualify := by
  cases e with
  | rowMembership e query negated =>
    cases h
    rw [pieces, ← List.singleton_append, ← List.append_assoc]
    exact ⟨_, _, rfl⟩
  | quantified e op quantifier query =>
    cases h
    exact ⟨_, _, rfl⟩
  | _ => cases h

theorem WellTyped.comparesOneItem {e : Expr} (h : e.WellTyped) : e.ComparesOneItem := by
  intro s hs
  have hwidth : s.outputWidth = 1 := by
    cases e with
    | rowMembership e query negated =>
      cases hs
      exact FitsSubquery.outputWidth_eq_one h
    | quantified e op quantifier query =>
      cases hs
      exact h.2.outputWidth_eq_one
    | _ => cases hs
  refine ⟨fun d qualify => ⟨?_, infix_pieces_of_compared hs d qualify⟩, fun k n => ?_⟩
  · rw [s.length_resultPieces, hwidth]
  · rw [s.itemCount_tokens, hwidth]

end Expr

/-! ### Everything that is built -/

/-- **Widths are those of the text.** A select has a class for each of its result columns and writes
an item for each. The members of a built compound select write as many items as it has result
columns, and none of them has an order or limits: those of the text are its own. A subquery that is
compared with an expression writes one item. -/
theorem writesItems_of_built (tables : Set Table) :
    (∀ s : Select, s.WritesItems) ∧
      (∀ c : CompoundSelect, c.Built tables → c.WritesItems) ∧
      (∀ e : Expr, e.Built tables → e.Everywhere Expr.ComparesOneItem Select.WritesItems) ∧
      ∀ s : Statement, s.Built tables → s.Everywhere Expr.ComparesOneItem Select.WritesItems := by
  refine ⟨Select.writesItems, fun c hc => hc.writesItems, fun e he => ?_, fun s hs => ?_⟩
  · exact he.everywhere.imp (fun e he => he.wellTyped.comparesOneItem) fun s _ => s.writesItems
  · exact hs.everywhere.imp (fun e he => he.wellTyped.comparesOneItem) fun s _ => s.writesItems

/-! ### Goods at the prices of orders -/

/-- The prices of at most five orders. -/
def fiveOrders : Select :=
  (Select.ofTable orders).limit 5

/-- A price of goods is one of those prices. -/
def pricedAsOrdered : Expr :=
  .rowMembership (.column price) fiveOrders false

/-- The goods with such a price. -/
def goodsAsOrdered : Select :=
  { Select.ofTable goods with filter? := some pricedAsOrdered }

/-- Three of their prices and the prices of orders. -/
def threePrices : CompoundSelect where
  first := goodsAsOrdered
  rest := [(.union, .ofTable orders)]
  orderBy := []
  limit? := some 3
  offset? := none

theorem built_pricedAsOrdered : pricedAsOrdered.Built {goods, orders} := by
  have hlimit : (Select.ofTable orders).step (.limit 5) = .ok fiveOrders := rfl
  have horders : fiveOrders.Built {goods, orders} := by
    refine .step (.ofTable (.inr rfl)) ?_ ?_ ?_ hlimit
    · exact List.forall_mem_nil _
    · exact List.forall_mem_nil _
    · exact List.forall_mem_nil _
  have hmembership : (Expr.column price).inSelect fiveOrders false = .ok pricedAsOrdered := rfl
  exact .inSelect (.column ⟨goods, .inl rfl, .head _⟩) horders hmembership

theorem built_threePrices : threePrices.Built {goods, orders} := by
  have hfilter : (Select.ofTable goods).step (.filterBy pricedAsOrdered) =
      .ok goodsAsOrdered := rfl
  have hgoods : goodsAsOrdered.Built {goods, orders} := by
    refine .step (.ofTable (.inl rfl)) ?_ ?_ ?_ hfilter
    · exact List.forall_mem_singleton.2 built_pricedAsOrdered
    · exact List.forall_mem_nil _
    · exact List.forall_mem_nil _
  have hunion : CompoundSelect.step ⟨goodsAsOrdered, [], [], none, none⟩
      (.combine .union (.ofTable orders)) =
        .ok ⟨goodsAsOrdered, [(.union, .ofTable orders)], [], none, none⟩ := rfl
  exact .limit 3 (.combine (.ofSelect hgoods rfl) (.ofTable (.inr rfl)) hunion)

theorem writesItems_of_built_threePrices :
    pricedAsOrdered.Built {goods, orders} ∧ threePrices.Built {goods, orders} ∧
      (Statement.compound threePrices).Built {goods, orders} ∧
      ((Statement.compound threePrices).compile .postgres).sql =
        "SELECT \"price\" FROM \"goods\" WHERE \"price\" IN " ++
          "(SELECT \"price\" FROM \"orders\" LIMIT 5) UNION " ++
          "SELECT \"price\" FROM \"orders\" LIMIT 3" ∧
      HasPagingWords (lex '"' ((Statement.compound threePrices).compile .postgres).sql) ∧
      (∀ n, ¬ HasPagingWords (Piece.tokens .postgres n (goodsAsOrdered.pieces .postgres))) ∧
      (∀ n, itemCount (Piece.tokens .postgres n (fiveOrders.pieces .postgres)) = 1) ∧
      goodsAsOrdered.Everywhere Expr.ComparesOneItem Select.WritesItems := by
  obtain ⟨-, hcompound, hexpr, hstatement⟩ := writesItems_of_built {goods, orders}
  have hwrites := hcompound _ built_threePrices
  exact ⟨built_pricedAsOrdered, built_threePrices, .compound built_threePrices, rfl,
    (hwrites.paging .postgres).2 (.inr (.inl rfl)), hwrites.noPaging _ (.head _) .postgres,
    ((hexpr _ built_pricedAsOrdered).here fiveOrders rfl).2 .postgres,
    (hstatement _ (.compound built_threePrices)).members _ (.head _)⟩

end TypedSql
