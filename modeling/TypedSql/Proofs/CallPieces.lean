import TypedSql.Proofs.Calls
import TypedSql.Proofs.CallTexts

/-!
# Calls among pieces

A dialect calls functions by names; `Dialect.CallsByName` says that it writes these names for
nothing else. `Piece.WritesCalls` says of pieces that the calls in their tokens are what is written
for some calls (`Call.written`), and what they leave outside of parentheses: a value (`Stands`),
something that may follow one (`Follows`), or anything. The lemmas follow the ways in which pieces
are put together.
-/

namespace TypedSql

/-! ### Names of functions -/

/-- The words of fixed text, other than the names of functions. -/
def reservedWords : List String :=
  ["ALL", "AND", "ANY", "AS", "ASC", "BETWEEN", "BY", "CROSS", "DELETE", "DESC", "DISTINCT",
    "EXCEPT", "EXISTS", "FIRST", "FROM", "FULL", "GROUP", "HAVING", "ILIKE", "IN", "INNER", "INSERT",
    "INTERSECT", "INTO", "IS", "JOIN", "LAST", "LEFT", "LIKE", "LIMIT", "NOT", "NULL", "NULLS",
    "OFFSET", "ON", "OR", "ORDER", "OUTER", "RETURNING", "RIGHT", "SELECT", "SEPARATOR", "SET",
    "UNION", "UPDATE", "VALUES", "WHERE"]

/-- The names that a dialect writes for functions. An operand in lower case is a call in all of
them. -/
def Dialect.callNames (d : Dialect) : List String :=
  "LOWER" :: SqlFunction.all.map d.functionName

/-- A name of a function is no other word and no number. -/
def IsFunctionName (name : String) : Prop :=
  name ∉ reservedWords ∧ name.toList.all Char.isDigit = false

instance (name : String) : Decidable (IsFunctionName name) :=
  inferInstanceAs (Decidable (_ ∧ _))

/-- The names that a dialect writes for functions are written for nothing else. -/
structure Dialect.CallsByName (d : Dialect) : Prop extends d.IsPlain where
  names : ∀ f, IsFunctionName (d.functionName f)
  truthValues : ∀ b, d.booleanLiteral b ∉ "DISTINCT" :: d.callNames
  unbounded : ∀ s, d.unboundedLimit? = some s →
    ∀ t ∈ lex d.identifierQuote (" LIMIT " ++ s), IsQuiet d.callNames t

/-- A token of fixed text that is no parenthesis and no name of a function. -/
def Token.isOrdinary : Token Nat → Bool
  | .word w => reservedWords.contains w
  | t => !parentheses.contains t

/-- A fixed text without parentheses and names of functions. -/
def IsOrdinaryText (s : String) : Prop :=
  IsPlainText s ∧ ∀ t ∈ lex '"' s, t.isOrdinary = true

instance (s : String) : Decidable (IsOrdinaryText s) :=
  inferInstanceAs (Decidable (_ ∧ ∀ t ∈ lex '"' s, t.isOrdinary = true))

/-- A fixed text without parentheses and names of functions that may come after a value. -/
def FollowsText (s : String) : Prop :=
  IsOrdinaryText s ∧ Follows (lex '"' s)

instance (s : String) : Decidable (FollowsText s) :=
  inferInstanceAs (Decidable (_ ∧ _))

/-- A fixed text that opens a parenthesis at its end and starts with no `*`. -/
def OpensText (s : String) : Prop :=
  IsPlainText s ∧ (lex '"' s).getLast? = some (.mark '(') ∧
    (lex '"' s).head? ≠ some (.operator "*") ∧
    ∀ t ∈ (lex '"' s).dropLast, t.isOrdinary = true ∧ IsCalm t

instance (s : String) : Decidable (OpensText s) :=
  inferInstanceAs
    (Decidable (_ ∧ _ ∧ _ ∧ ∀ t ∈ (lex '"' s).dropLast, t.isOrdinary = true ∧ IsCalm t))

section Names

variable {d : Dialect} {s : String}

theorem Dialect.functionName_mem_callNames (f : SqlFunction) : d.functionName f ∈ d.callNames :=
  List.mem_cons_of_mem _ (List.mem_map_of_mem (by cases f <;> decide))

variable (hd : d.CallsByName)
include hd

theorem Dialect.CallsByName.isFunctionName {name : String} (h : name ∈ d.callNames) :
    IsFunctionName name := by
  obtain rfl | h := List.mem_cons.1 h
  · decide
  · obtain ⟨f, -, rfl⟩ := List.mem_map.1 h
    exact hd.names f

theorem isQuiet_of_isOrdinary {t : Token Nat} (h : t.isOrdinary = true) :
    IsQuiet d.callNames t := by
  cases t with
  | word w =>
    refine ⟨by simp [parentheses], fun name hname hw => ?_⟩
    cases hw
    exact (hd.isFunctionName hname).1 (by simpa [Token.isOrdinary] using h)
  | _ => exact ⟨by simpa [Token.isOrdinary] using h, by rintro _ _ ⟨⟩⟩

theorem IsPlainText.lex_eq (h : IsPlainText s) : lex d.identifierQuote s = lex '"' s :=
  lex_eq_of_isPlainText hd.quote DialectKind.generic.isPlain.quote h

/-- A plain word is one token. -/
theorem IsPlainWord.lex_eq (h : IsPlainWord s) : lex d.identifierQuote s = [.word s] := by
  rw [lex, Lexer.tokens_word hd.quote h.1 h.2, String.ofList_toList]

end Names

/-! ### What is written for a call -/

/-- What is written for a call under some name: `*` for no arguments, and one argument where a
literal follows the value in it. -/
def Call.written (d : Dialect) (name : String) (c : Call) : WrittenCall where
  name := name
  arguments :=
    if c.arguments.isEmpty then [.star]
    else if (c.literal? d).isSome then [.value]
    else List.replicate c.arguments.length (if c.distinct then .distinct else .value)
  literals := (c.literal? d).toList

namespace Piece

/-- The parentheses of pieces match, outside of them there are tokens of some kind, and the calls in
them are what is written for some others. -/
def WritesCalls (d : Dialect) (P : List (Token Nat) → Prop) (calls : List (String × Call))
    (ps : List Piece) : Prop :=
  ∀ n, ∃ out, ShowsCalls d.callNames (tokens d n ps) out
    (calls.map fun p => p.2.written d p.1) ∧ P out

/-- Tokens of any kind. -/
def Anything : List (Token Nat) → Prop :=
  fun _ => True

section WritesCalls

variable {d : Dialect} {P Q R : List (Token Nat) → Prop} {calls calls' : List (String × Call)}
  {ps qs : List Piece} {s : String}

theorem WritesCalls.imp (h : WritesCalls d P calls ps) (hPQ : ∀ ts, P ts → Q ts) :
    WritesCalls d Q calls ps := by
  intro n
  obtain ⟨out, hshows, hout⟩ := h n
  exact ⟨out, hshows, hPQ out hout⟩

theorem WritesCalls.anything (h : WritesCalls d P calls ps) : WritesCalls d Anything calls ps :=
  h.imp fun _ _ => trivial

theorem WritesCalls.follows (h : WritesCalls d Stands calls ps) : WritesCalls d Follows calls ps :=
  h.imp fun _ => Stands.follows

theorem WritesCalls.nil (h : P []) : WritesCalls d P [] [] :=
  fun _ => ⟨[], .nil, h⟩

theorem WritesCalls.append (h : WritesCalls d P calls ps) (h' : WritesCalls d Q calls' qs)
    (hR : ∀ ts us, P ts → Q us → R (ts ++ us)) :
    WritesCalls d R (calls ++ calls') (ps ++ qs) := by
  intro n
  obtain ⟨out, hshows, hout⟩ := h n
  obtain ⟨out', hshows', hout'⟩ := h' (n + (parameters ps).length)
  refine ⟨out ++ out', ?_, hR out out' hout hout'⟩
  rw [tokens_append, List.map_append]
  exact hshows.append hshows'

/-- What may follow follows a value. -/
theorem WritesCalls.and_then (h : WritesCalls d Stands calls ps)
    (h' : WritesCalls d Follows calls' qs) : WritesCalls d Stands (calls ++ calls') (ps ++ qs) :=
  h.append h' fun _ _ => Stands.append

theorem WritesCalls.beside (h : WritesCalls d Anything calls ps)
    (h' : WritesCalls d Anything calls' qs) :
    WritesCalls d Anything (calls ++ calls') (ps ++ qs) :=
  h.append h' fun _ _ _ _ => trivial

theorem WritesCalls.notice_cons (n : Notice) (h : WritesCalls d P calls ps) :
    WritesCalls d P calls (.notice n :: ps) :=
  fun m => h m

theorem WritesCalls.flatMap {α : Type} {items : List α} {marks : α → List (String × Call)}
    {layout : α → List Piece} (h : ∀ a ∈ items, WritesCalls d Anything (marks a) (layout a)) :
    WritesCalls d Anything (items.flatMap marks) (items.flatMap layout) := by
  induction items with
  | nil => exact .nil trivial
  | cons a items ih =>
    obtain ⟨ha, hitems⟩ := List.forall_mem_cons.1 h
    exact ha.beside (ih hitems)

theorem WritesCalls.text (hquiet : ∀ t ∈ lex d.identifierQuote s, IsQuiet d.callNames t)
    (hP : P (lex d.identifierQuote s)) : WritesCalls d P [] [.text s] := by
  intro n
  rw [tokens, tokens, List.append_nil]
  exact ⟨_, .self hquiet, hP⟩

/-- A token that is neither a parenthesis nor a word is a value. -/
theorem writesCalls_token {p : Piece} {t : Nat → Token Nat}
    (htokens : ∀ n, tokens d n [p] = [t n])
    (ht : ∀ n, t n ∉ parentheses ∧ IsCalm (t n) ∧ t n ≠ .operator "*" ∧ ∀ w, t n ≠ .word w) :
    WritesCalls d Stands [] [p] := by
  intro n
  obtain ⟨hparenthesis, hcalm, hstar, hword⟩ := ht n
  rw [htokens n]
  refine ⟨_, .self (List.forall_mem_singleton.2 ⟨hparenthesis, fun w _ => hword w⟩), ?_⟩
  exact ⟨List.forall_mem_singleton.2 hcalm, by simp, by simpa using hstar⟩

theorem writesCalls_identifier (name : String) : WritesCalls d Stands [] [.identifier name] :=
  writesCalls_token (t := fun _ => .identifier name) (fun _ => rfl) fun _ => by
    simp [parentheses, IsCalm, Token.quotedText?]

theorem writesCalls_parameter (v : Value) : WritesCalls d Stands [] [.parameter v] := by
  refine writesCalls_token (t := d.placeholderStyle.token) (fun _ => rfl) fun _ => ?_
  cases d.placeholderStyle <;>
    simp [PlaceholderStyle.token, parentheses, IsCalm, Token.quotedText?]

/-- Lists of pieces with a separator between them. -/
theorem WritesCalls.separated {α : Type} {separator : List (Token Nat)}
    (hlex : lex d.identifierQuote s = separator)
    (hquiet : ∀ t ∈ separator, IsQuiet d.callNames t) {items : List α}
    {marks : α → List (String × Call)} {layout : α → List Piece}
    (h : ∀ a ∈ items, WritesCalls d P (marks a) (layout a)) :
    WritesCalls d (Joined separator P items.length) (items.flatMap marks)
      (Piece.separated s (items.map layout)) := by
  have hseparator : WritesCalls d (· = separator) [] [.text s] := .text (hlex ▸ hquiet) hlex
  induction items with
  | nil => exact .nil ⟨[], rfl, List.forall_mem_nil _, rfl⟩
  | cons a items ih =>
    obtain ⟨ha, hitems⟩ := List.forall_mem_cons.1 h
    cases items with
    | nil =>
      simp only [List.flatMap_cons, List.flatMap_nil, List.append_nil]
      exact ha.imp fun ts hts => ⟨[ts], rfl, List.forall_mem_singleton.2 hts, by simp⟩
    | cons b items =>
      have hrest : WritesCalls d
          (fun ts => ∃ us, Joined separator P (items.length + 1) us ∧ ts = separator ++ us)
          ((b :: items).flatMap marks)
          (.text s :: Piece.separated s ((b :: items).map layout)) :=
        hseparator.append (ih hitems) fun ts us hts hus => ⟨us, hus, hts ▸ rfl⟩
      refine ha.append hrest ?_
      rintro ts - hts ⟨-, ⟨parts, hlength, hparts, rfl⟩, rfl⟩
      refine ⟨ts :: parts, by simp [hlength], List.forall_mem_cons.2 ⟨hts, hparts⟩, ?_⟩
      obtain ⟨part, parts, rfl⟩ := List.exists_cons_of_length_eq_add_one hlength
      rw [List.intercalate_cons_cons, List.append_assoc]

end WritesCalls

/-! ### The parts of an expression -/

section Parts

variable {d : Dialect} {P : List (Token Nat) → Prop} {calls calls' : List (String × Call)}
  {ps qs : List Piece} {s : String} (hd : d.CallsByName)
include hd

theorem quiet_of_isOrdinaryText (hs : IsOrdinaryText s) :
    ∀ t ∈ lex d.identifierQuote s, IsQuiet d.callNames t := by
  rw [hs.1.lex_eq hd]
  exact fun t ht => isQuiet_of_isOrdinary hd (hs.2 t ht)

/-- A fixed text with known tokens. -/
theorem writesCalls_text (hs : IsOrdinaryText s) {ts : List (Token Nat)} (hts : lex '"' s = ts) :
    WritesCalls d (· = ts) [] [.text s] :=
  .text (quiet_of_isOrdinaryText hd hs) ((hs.1.lex_eq hd).trans hts)

theorem writesCalls_ordinary (hs : IsOrdinaryText s) : WritesCalls d Anything [] [.text s] :=
  .text (quiet_of_isOrdinaryText hd hs) trivial

theorem writesCalls_follows (hs : FollowsText s) : WritesCalls d Follows [] [.text s] :=
  .text (quiet_of_isOrdinaryText hd hs.1) (hs.1.1.lex_eq hd ▸ hs.2)

theorem WritesCalls.text_cons (hs : IsOrdinaryText s) (h : WritesCalls d Anything calls ps) :
    WritesCalls d Anything calls (.text s :: ps) :=
  (writesCalls_ordinary hd hs).beside h

theorem WritesCalls.follows_cons (hs : FollowsText s) (h : WritesCalls d Follows calls ps) :
    WritesCalls d Follows calls (.text s :: ps) :=
  (writesCalls_follows hd hs).append h fun _ _ => Follows.append

theorem WritesCalls.and_text (h : WritesCalls d Stands calls ps) (hs : FollowsText s) :
    WritesCalls d Stands calls (ps ++ [.text s]) :=
  List.append_nil calls ▸ h.and_then (writesCalls_follows hd hs)

/-- A text between a value and what may follow one. -/
theorem WritesCalls.and_text_then (h : WritesCalls d Stands calls ps) (hs : FollowsText s)
    (h' : WritesCalls d Follows calls' qs) :
    WritesCalls d Stands (calls ++ calls') (ps ++ .text s :: qs) :=
  h.and_then (h'.follows_cons hd hs)

theorem lex_opening : lex d.identifierQuote "(" = [.mark '('] :=
  (IsPlainText.lex_eq hd (by decide)).trans (by decide)

theorem lex_closing : lex d.identifierQuote ")" = [.mark ')'] :=
  (IsPlainText.lex_eq hd (by decide)).trans (by decide)

/-- After a text that opens a parenthesis, pieces are inside until it is closed. -/
theorem WritesCalls.opened (hs : OpensText s) (h : WritesCalls d Anything calls ps) :
    WritesCalls d Stands calls (.text s :: ps ++ [.text ")"]) := by
  obtain ⟨before, hbefore, hhead, hlex⟩ : ∃ before,
      (∀ t ∈ before, t.isOrdinary = true ∧ IsCalm t) ∧
        (before ++ [.mark '(']).head? ≠ some (.operator "*") ∧
        lex d.identifierQuote s = before ++ [.mark '('] := by
    have hsplit := List.dropLast_append_getLast? _ hs.2.1
    exact ⟨_, hs.2.2.2, by rw [hsplit]; exact hs.2.2.1, (hs.1.lex_eq hd).trans hsplit.symm⟩
  intro n
  obtain ⟨out, hshows, -⟩ := h n
  refine ⟨before ++ [.mark '('], ?_, ?_, by simp, hhead⟩
  · have hquiet : ∀ t ∈ before, IsQuiet d.callNames t :=
      fun t ht => isQuiet_of_isOrdinary hd (hbefore t ht).1
    simpa [tokens, tokens_append, hlex, lex_closing hd] using
      (ShowsCalls.self hquiet).append hshows.parenthesized
  · exact Follows.append (fun t ht => (hbefore t ht).2) (by decide)

theorem WritesCalls.enclosedIf (b : Bool) (h : WritesCalls d Stands calls ps) :
    WritesCalls d Stands calls (enclosedIf b ps) := by
  cases b
  · exact h
  · exact h.anything.opened hd (by decide)

/-- The name of a function before parentheses is a call of what is in them. -/
theorem WritesCalls.call {name : String} (hname : name ∈ d.callNames)
    (hlex : lex d.identifierQuote name = [.word name]) {c : Call}
    (hread : ∀ ts, P ts → WrittenCall.read name ts = c.written d name)
    (h : WritesCalls d P calls ps) :
    WritesCalls d Stands ((name, c) :: calls) (.text name :: parenthesized ps) := by
  have hdistinct : name ≠ "DISTINCT" := by
    rintro rfl
    exact (hd.isFunctionName hname).1 (by decide)
  intro n
  obtain ⟨out, hshows, hout⟩ := h n
  refine ⟨[.word name, .mark '('], ?_, ?_, by simp, by simp⟩
  · rw [List.map_cons, ← hread out hout]
    simpa [tokens, tokens_append, parenthesized, hlex, lex_opening hd, lex_closing hd] using
      hshows.call hname
  · simp [Follows, IsCalm, Token.quotedText?, hdistinct]

theorem WritesCalls.callPieces (f : SqlFunction) {c : Call}
    (hread : ∀ ts, P ts →
      WrittenCall.read (d.functionName f) ts = c.written d (d.functionName f))
    (h : WritesCalls d P calls ps) :
    WritesCalls d Stands ((d.functionName f, c) :: calls) (callPieces d f ps) :=
  h.call hd (Dialect.functionName_mem_callNames f) ((hd.functionName f).lex_eq hd) hread

theorem WritesCalls.commaSeparated {α : Type} {items : List α} {marks : α → List (String × Call)}
    {layout : α → List Piece} (h : ∀ a ∈ items, WritesCalls d P (marks a) (layout a)) :
    WritesCalls d (Joined [.mark ','] P items.length) (items.flatMap marks)
      (commaSeparated (items.map layout)) := by
  have hlex : lex d.identifierQuote ", " = [.mark ','] :=
    (IsPlainText.lex_eq hd (by decide)).trans (by decide)
  refine .separated hlex (List.forall_mem_singleton.2 ?_) h
  exact isQuiet_of_isOrdinary hd (by decide)

theorem writesCalls_columnPieces (qualify : Bool) (c : Column) :
    WritesCalls d Stands [] (c.pieces qualify) := by
  cases qualify
  · exact writesCalls_identifier _
  · exact (writesCalls_identifier _).and_then
      ((writesCalls_identifier _).follows.follows_cons hd (by decide))

omit hd in
theorem followsText_operator (op : BinaryOp) : FollowsText (" " ++ op.sql ++ " ") := by
  rcases op with op | ⟨ignoresCase, negated⟩ | op
  · cases op <;> decide
  · cases ignoresCase <;> cases negated <;> decide
  · cases op <;> decide

omit hd in
theorem opensText_membershipText (negated : Bool) : OpensText (membershipText negated) := by
  cases negated <;> decide

omit hd in
theorem opensText_quantified (op : Comparison) (quantifier : Quantifier) :
    OpensText (" " ++ op.sql ++ " " ++ quantifier.sql ++ " (") := by
  cases op <;> cases quantifier <;> decide

theorem writesCalls_minus : WritesCalls d Stands [] [.text "-"] := by
  have hminus : WritesCalls d (· = [.operator "-"]) [] [.text "-"] :=
    writesCalls_text hd (by decide) (by decide)
  refine hminus.imp ?_
  rintro _ rfl
  exact ⟨by decide, by simp, by simp⟩

theorem writesCalls_truthValue (b : Bool) :
    WritesCalls d Stands [] [.text (d.booleanLiteral b)] := by
  have hlex := (hd.booleanLiteral b).lex_eq hd
  have hne := hd.truthValues b
  simp only [List.mem_cons, not_or] at hne
  refine .text ?_ ?_ <;> rw [hlex]
  · refine List.forall_mem_singleton.2 ⟨by simp [parentheses], fun w hw heq => ?_⟩
    cases heq
    exact hd.truthValues b (List.mem_cons_of_mem _ hw)
  · exact ⟨List.forall_mem_singleton.2 (by simp [IsCalm, Token.quotedText?, hne.1]), by simp,
      by simp⟩

/-- Lower-cased operands are two calls with an operator between them. -/
theorem writesCalls_lowered (negated : Bool) {l r : Expr} (hps : WritesCalls d Stands calls ps)
    (hqs : WritesCalls d Stands calls' qs) :
    WritesCalls d Stands (("LOWER", .lower l) :: calls ++ ("LOWER", .lower r) :: calls')
      (.text "LOWER(" :: ps ++
        .text (if negated then ") NOT LIKE LOWER(" else ") LIKE LOWER(") :: qs ++ [.text ")"]) := by
  have hsplit : ∀ n, tokens d n (.text "LOWER(" :: ps ++
        .text (if negated then ") NOT LIKE LOWER(" else ") LIKE LOWER(") :: qs ++ [.text ")"]) =
      tokens d n ((.text "LOWER" :: parenthesized ps) ++
        .text (if negated then " NOT LIKE " else " LIKE ") ::
          (.text "LOWER" :: parenthesized qs)) := by
    have hopening : lex d.identifierQuote "LOWER(" =
        lex d.identifierQuote "LOWER" ++ lex d.identifierQuote "(" := by
      rw [IsPlainText.lex_eq hd, IsPlainText.lex_eq hd, IsPlainText.lex_eq hd] <;> decide
    have hmiddle : lex d.identifierQuote
          (if negated then ") NOT LIKE LOWER(" else ") LIKE LOWER(") =
        lex d.identifierQuote ")" ++
            lex d.identifierQuote (if negated then " NOT LIKE " else " LIKE ") ++
          lex d.identifierQuote "LOWER" ++ lex d.identifierQuote "(" := by
      rw [IsPlainText.lex_eq hd, IsPlainText.lex_eq hd, IsPlainText.lex_eq hd,
        IsPlainText.lex_eq hd, IsPlainText.lex_eq hd] <;> cases negated <;> decide
    intro n
    simp [parenthesized, tokens, tokens_append, hopening, hmiddle, parameters, parameter?]
  have hcall : ∀ {e : Expr} {calls : List (String × Call)} {ps : List Piece},
      WritesCalls d Stands calls ps →
      WritesCalls d Stands (("LOWER", .lower e) :: calls) (.text "LOWER" :: parenthesized ps) :=
    fun h => h.call hd (List.mem_cons_self ..) (IsPlainWord.lex_eq hd (by decide))
      fun _ hts => read_value hts
  intro n
  rw [hsplit n]
  exact (hcall hps).and_text_then hd (by cases negated <;> decide) (hcall hqs).follows n

theorem writesCalls_opening (op : Comparison) (quantifier : Quantifier)
    (h : WritesCalls d Anything calls ps) :
    WritesCalls d Stands calls (quantifier.opening d op ++ ps ++ [.text ")"]) := by
  unfold Quantifier.opening
  split
  · exact h.opened hd (opensText_quantified op quantifier)
  · split
    · exact h.opened hd (opensText_membershipText false)
    · exact h.opened hd (opensText_membershipText true)
    · exact .notice_cons _ (h.opened hd (opensText_quantified op quantifier))

end Parts

end Piece

end TypedSql
