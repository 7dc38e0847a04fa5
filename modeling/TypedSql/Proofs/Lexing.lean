import TypedSql.Compiled
import TypedSql.Proofs.Tidy

/-!
# Lexing compiled statements

The lexer splits the text of a tidy layout where the pieces meet, and reads every piece for what it
is: fixed text as its own words and operators, a quoted region as the name or text that was quoted,
a numbered placeholder as its number. `Piece.tokens` are these tokens and `Statement.lex_compile`
says that the text of a compiled statement has no others.
-/

namespace TypedSql

open Piece (Edge Tidy)

/-- The token of the placeholder of a position. -/
def PlaceholderStyle.token : PlaceholderStyle → Nat → Token Nat
  | .questionMark, _ => .mark '?'
  | .numbered, n => .placeholder n

/-- The tokens of pieces for a dialect, where the next placeholder has the given position. -/
def Piece.tokens (d : Dialect) : Nat → List Piece → List (Token Nat)
  | _, [] => []
  | n, .text s :: ps => lex d.identifierQuote s ++ tokens d n ps
  | n, .identifier name :: ps => .identifier name :: tokens d n ps
  | n, .parameter _ :: ps => d.placeholderStyle.token n :: tokens d (n + 1) ps
  | n, .quotedText s :: ps => .quotedText s :: tokens d n ps
  | n, .notice _ :: ps => tokens d n ps

/-- Tokens are laid side by side; placeholders go on counting. -/
theorem Piece.tokens_append (d : Dialect) (n : Nat) (ps qs : List Piece) :
    tokens d n (ps ++ qs) = tokens d n ps ++ tokens d (n + (parameters ps).length) qs := by
  induction ps generalizing n with
  | nil => simp [tokens]
  | cons p ps ih =>
    cases p <;> simp [tokens, ih, parameters, parameter?, List.filterMap_cons, Nat.add_right_comm,
      Nat.add_assoc]

/-- The tokens of the pieces that are no fixed text. -/
def Piece.regions (d : Dialect) : Nat → List Piece → List (Token Nat)
  | _, [] => []
  | n, .identifier name :: ps => .identifier name :: regions d n ps
  | n, .parameter _ :: ps => d.placeholderStyle.token n :: regions d (n + 1) ps
  | n, .quotedText s :: ps => .quotedText s :: regions d n ps
  | n, .text _ :: ps | n, .notice _ :: ps => regions d n ps

namespace Lexer

/-! ### Where tokens end -/

/-- What a mode shows to the next character, if a token may end there. -/
def Mode.edge? : Mode → Option Edge
  | .idle => some .blank
  | .word _ | .position _ => some .word
  | .operator _ => some .operator
  | .identifierEnd _ | .textEnd _ => some .quote
  | .identifier _ | .text _ | .textEscape _ => none

/-- The edge that a character makes, where some character quotes identifiers. -/
def edgeOf (quote c : Char) : Edge :=
  if c = quote ∨ c = '\'' then .quote else if c = '$' ∨ c = '?' then .word else .ofChar c

/-- A character that quotes identifiers and nothing else. -/
def IsQuote (quote : Char) : Prop :=
  isPlainChar quote = false ∧ quote ∉ ['\'', '$', '?']

variable {quote : Char} {m : Mode} {e : Edge} {c : Char}

theorem IsQuote.ne (hq : IsQuote quote) (hc : isPlainChar c = true) : c ≠ quote := by
  rintro rfl
  rw [hq.1] at hc
  cases hc

theorem edgeOf_of_isPlainChar (hq : IsQuote quote) (hc : isPlainChar c = true) :
    edgeOf quote c = .ofChar c := by
  have hne := hq.ne hc
  have hmarks : c ≠ '\'' ∧ c ≠ '$' ∧ c ≠ '?' := by
    refine ⟨?_, ?_, ?_⟩ <;> rintro rfl <;> exact absurd hc (by decide)
  simp [edgeOf, hne, hmarks]

theorem edgeOf_of_isWordChar (hq : IsQuote quote) (hc : isWordChar c = true) :
    edgeOf quote c = .word := by
  rw [edgeOf_of_isPlainChar hq (by simp [isPlainChar, hc])]
  simp [Edge.ofChar, hc]

theorem not_isWordChar_of_isOperatorChar (hc : isOperatorChar c = true) :
    isWordChar c = false := by
  simp only [isOperatorChar, List.contains_eq_mem, List.mem_cons, List.not_mem_nil,
    decide_eq_true_eq] at hc
  rcases hc with rfl | rfl | rfl | rfl | rfl | rfl | rfl | rfl | hc
  all_goals first | decide | exact hc.elim

theorem edgeOf_of_isOperatorChar (hq : IsQuote quote) (hc : isOperatorChar c = true) :
    edgeOf quote c = .operator := by
  rw [edgeOf_of_isPlainChar hq (by simp [isPlainChar, hc])]
  simp [Edge.ofChar, hc, not_isWordChar_of_isOperatorChar hc]

theorem isWordChar_of_isDigit (hc : c.isDigit = true) : isWordChar c = true := by
  simp [isWordChar, Char.isAlphanum, hc]

/-- A character that does not fuse with the token before it starts afresh. -/
theorem step_eq_restart (hq : IsQuote quote) (hm : m.edge? = some e)
    (hc : e.Apart (edgeOf quote c)) : m.step quote c = m.restart quote c := by
  have hword : e = .word → isWordChar c = false := by
    rintro rfl
    by_contra h
    exact hc.elim nofun fun h' => h' (edgeOf_of_isWordChar hq (by simpa using h)).symm
  have hoperator : e = .operator → isOperatorChar c = false := by
    rintro rfl
    by_contra h
    exact hc.elim nofun fun h' => h' (edgeOf_of_isOperatorChar hq (by simpa using h)).symm
  have hquote : e = .quote → c ≠ quote ∧ c ≠ '\'' := by
    rintro rfl
    constructor <;> rintro rfl <;> exact hc.elim nofun fun h => h (by simp [edgeOf])
  cases m with
  | idle => simp [Mode.step, Mode.restart, Mode.flush]
  | word cs => simp [Mode.step, hword (Option.some.inj hm).symm]
  | operator cs => simp [Mode.step, hoperator (Option.some.inj hm).symm]
  | position cs =>
    have hdigit : c.isDigit = false :=
      Bool.eq_false_iff.2 fun h =>
        Bool.eq_false_iff.1 (hword (Option.some.inj hm).symm) (isWordChar_of_isDigit h)
    simp [Mode.step, hdigit]
  | identifierEnd cs => simp [Mode.step, (hquote (Option.some.inj hm).symm).1]
  | textEnd cs => simp [Mode.step, (hquote (Option.some.inj hm).symm).2]
  | identifier cs => cases hm
  | text cs => cases hm
  | textEscape cs => cases hm

/-- Where a token ends, lexing goes on as at the start of a text. -/
theorem tokens_eq_flush_append (hq : IsQuote quote) (hm : m.edge? = some e)
    (hc : e.Apart (edgeOf quote c)) (cs : List Char) :
    tokens quote m (c :: cs) = m.flush ++ tokens quote .idle (c :: cs) :=
  tokens_cons_of_restart (step_eq_restart hq hm hc) cs

/-! ### Fixed text -/

theorem edge?_start (hq : IsQuote quote) (hc : isPlainChar c = true) :
    (start quote c).2.edge? = some (.ofChar c) := by
  have hquote := hq.ne hc
  have htext : c ≠ '\'' := by
    rintro rfl
    cases hc
  have hdollar : c ≠ '$' := by
    rintro rfl
    cases hc
  simp only [start, if_neg hquote, if_neg htext, if_neg hdollar, Edge.ofChar]
  cases isWordChar c
  · cases isOperatorChar c
    · simp only [Bool.false_eq_true, if_false]
      split <;> rfl
    · rfl
  · rfl

/-- After a plain character a token may end. -/
theorem edge?_step (hq : IsQuote quote) (hm : m.edge? = some e) (hc : isPlainChar c = true) :
    (m.step quote c).2.edge? = some (.ofChar c) := by
  have hstart := edge?_start hq hc
  have hquote := hq.ne hc
  have htext : c ≠ '\'' := by
    rintro rfl
    cases hc
  cases m with
  | idle => exact hstart
  | word cs =>
    cases h : isWordChar c
    · simpa [Mode.step, Mode.restart, h] using hstart
    · simp [Mode.step, h, Mode.edge?, Edge.ofChar]
  | operator cs =>
    cases h : isOperatorChar c
    · simpa [Mode.step, Mode.restart, h] using hstart
    · simp [Mode.step, h, Mode.edge?, Edge.ofChar, not_isWordChar_of_isOperatorChar h]
  | position cs =>
    cases h : c.isDigit
    · simpa [Mode.step, Mode.restart, h] using hstart
    · simp [Mode.step, h, Mode.edge?, Edge.ofChar, isWordChar_of_isDigit h]
  | identifierEnd cs => simpa [Mode.step, Mode.restart, hquote] using hstart
  | textEnd cs => simpa [Mode.step, Mode.restart, htext] using hstart
  | identifier cs => cases hm
  | text cs => cases hm
  | textEscape cs => cases hm

/-- After plain text the mode shows the last character. -/
theorem edge?_run (hq : IsQuote quote) (hm : m.edge? = some e) {cs : List Char} (hne : cs ≠ [])
    (hcs : ∀ c ∈ cs, isPlainChar c = true) :
    (run quote m cs).2.edge? = some (.ofChar (cs.getLast hne)) := by
  induction cs generalizing m e with
  | nil => exact absurd rfl hne
  | cons c cs ih =>
    have hstep := edge?_step hq hm (hcs c (by simp))
    by_cases h : cs = []
    · subst h
      simpa [run_cons] using hstep
    · rw [run_cons, List.getLast_cons h]
      exact ih hstep h fun d hd => hcs d (List.mem_cons_of_mem _ hd)

/-- The lexer is in the middle of fixed text, and not of a region or a placeholder. -/
def Mode.isFixed : Mode → Bool
  | .idle | .word _ | .operator _ => true
  | _ => false

theorem Mode.isFixed_flush (hm : m.isFixed = true) : ∀ t ∈ m.flush, t.isFixed = true := by
  cases m with
  | idle => exact List.forall_mem_nil _
  | word cs => exact List.forall_mem_singleton.2 rfl
  | operator cs => exact List.forall_mem_singleton.2 rfl
  | _ => cases hm

theorem isFixed_start (hq : IsQuote quote) (hc : isPlainChar c = true) :
    (∀ t ∈ (start quote c).1, t.isFixed = true) ∧ (start quote c).2.isFixed = true := by
  have hmarks : c ≠ '\'' ∧ c ≠ '$' := by
    constructor <;> rintro rfl <;> exact absurd hc (by decide)
  simp only [start, if_neg (hq.ne hc), if_neg hmarks.1, if_neg hmarks.2]
  repeat' split
  all_goals exact ⟨by simp [Token.isFixed], rfl⟩

/-- A plain character leads into no region. -/
theorem isFixed_step (hq : IsQuote quote) (hm : m.isFixed = true) (hc : isPlainChar c = true) :
    (∀ t ∈ (m.step quote c).1, t.isFixed = true) ∧ (m.step quote c).2.isFixed = true := by
  have hstart := isFixed_start hq hc
  have hrestart : (∀ t ∈ (m.restart quote c).1, t.isFixed = true) ∧
      (m.restart quote c).2.isFixed = true :=
    ⟨List.forall_mem_append.2 ⟨Mode.isFixed_flush hm, hstart.1⟩, hstart.2⟩
  cases m with
  | idle => exact hstart
  | word cs =>
    simp only [Mode.step]
    split
    · exact ⟨List.forall_mem_nil _, rfl⟩
    · exact hrestart
  | operator cs =>
    simp only [Mode.step]
    split
    · exact ⟨List.forall_mem_nil _, rfl⟩
    · exact hrestart
  | _ => cases hm

theorem isFixed_of_mem_tokens (hq : IsQuote quote) {cs : List Char} (hm : m.isFixed = true)
    (hcs : ∀ c ∈ cs, isPlainChar c = true) : ∀ t ∈ tokens quote m cs, t.isFixed = true := by
  induction cs generalizing m with
  | nil => exact Mode.isFixed_flush hm
  | cons c cs ih =>
    obtain ⟨hfixed, hnext⟩ := isFixed_step hq hm (hcs c (by simp))
    rw [tokens_cons]
    exact List.forall_mem_append.2 ⟨hfixed, ih hnext fun d hd => hcs d (List.mem_cons_of_mem _ hd)⟩

/-- In the middle of fixed text, all quotes are alike to a plain character. -/
theorem step_eq_of_isPlainChar {quote' : Char} (hq : IsQuote quote) (hq' : IsQuote quote')
    (hm : m.isFixed = true) (hc : isPlainChar c = true) : m.step quote c = m.step quote' c := by
  have hstart : start quote c = start quote' c := by
    rw [start, start, if_neg (hq.ne hc), if_neg (hq'.ne hc)]
  cases m with
  | idle => exact hstart
  | word cs => simp only [Mode.step, Mode.restart, hstart]
  | operator cs => simp only [Mode.step, Mode.restart, hstart]
  | _ => cases hm

theorem tokens_eq_of_isPlainChar {quote' : Char} (hq : IsQuote quote) (hq' : IsQuote quote')
    {cs : List Char} (hm : m.isFixed = true) (hcs : ∀ c ∈ cs, isPlainChar c = true) :
    tokens quote m cs = tokens quote' m cs := by
  induction cs generalizing m with
  | nil => rfl
  | cons c cs ih =>
    obtain ⟨hc, hcs⟩ := List.forall_mem_cons.1 hcs
    rw [tokens_cons, tokens_cons, ih (isFixed_step hq hm hc).2 hcs,
      step_eq_of_isPlainChar hq hq' hm hc]

/-! ### Quoted regions and placeholders -/

/-- A quoted identifier is read up to its closing quote. -/
theorem run_doubleQuotes (cs acc : List Char) :
    run quote (.identifier acc) (Dialect.doubleQuotes quote cs) =
      ([], .identifier (acc ++ cs)) := by
  induction cs generalizing acc with
  | nil => simp [Dialect.doubleQuotes]
  | cons c cs ih =>
    by_cases h : c = quote
    · simp [Dialect.doubleQuotes, h, run_cons, Mode.step, ih]
    · simp [Dialect.doubleQuotes, h, run_cons, Mode.step, ih]

theorem run_quoteIdentifier (d : Dialect) (name : String) :
    run d.identifierQuote .idle (d.quoteIdentifier name).toList =
      ([], .identifierEnd name.toList) := by
  simp [Dialect.quoteIdentifier, run_cons, run_append, Mode.step, start, run_doubleQuotes]

/-- Word characters are one word. -/
theorem run_word {cs : List Char} (hcs : ∀ c ∈ cs, isWordChar c = true) (acc : List Char) :
    run quote (.word acc) cs = ([], .word (acc ++ cs)) := by
  induction cs generalizing acc with
  | nil => simp
  | cons c cs ih =>
    obtain ⟨hc, hcs⟩ := List.forall_mem_cons.1 hcs
    simp [run_cons, Mode.step, hc, ih hcs]

theorem tokens_word (hq : IsQuote quote) {cs : List Char} (hne : cs ≠ [])
    (hcs : ∀ c ∈ cs, isWordChar c = true) :
    tokens quote .idle cs = [.word (String.ofList cs)] := by
  obtain ⟨c, cs, rfl⟩ := List.exists_cons_of_ne_nil hne
  obtain ⟨hc, hcs⟩ := List.forall_mem_cons.1 hcs
  have hquote : c ≠ quote := hq.ne (by simp [isPlainChar, hc])
  have hmarks : c ≠ '\'' ∧ c ≠ '$' := by
    constructor <;> rintro rfl <;> exact absurd hc (by decide)
  have hstep : Mode.step quote .idle c = ([], .word [c]) := by
    simp [Mode.step, start, hquote, hmarks, hc]
  rw [tokens_cons, hstep, tokens, run_word hcs]
  rfl

/-- A quoted text is read up to its closing quote. -/
theorem run_escapeLiteral (cs acc : List Char) :
    run quote (.text acc) (cs.flatMap Piece.escapeLiteral) = ([], .text (acc ++ cs)) := by
  induction cs generalizing acc with
  | nil => simp
  | cons c cs ih =>
    by_cases hquote : c = '\''
    · simp [Piece.escapeLiteral, hquote, run_cons, Mode.step, ih]
    · by_cases hescape : c = '\\'
      · simp [Piece.escapeLiteral, hescape, run_cons, Mode.step, ih]
      · simp [Piece.escapeLiteral, hquote, hescape, run_cons, Mode.step, ih]

theorem run_literal (hq : IsQuote quote) (s : String) :
    run quote .idle (Piece.literal s).toList = ([], .textEnd s.toList) := by
  have hne : '\'' ≠ quote := by
    rintro rfl
    exact hq.2 (by decide)
  simp [Piece.literal, run_cons, run_append, Mode.step, start, hne, run_escapeLiteral]

/-- The digits of a placeholder are read as they come. -/
theorem run_digits {cs : List Char} (hcs : ∀ c ∈ cs, c.isDigit = true) (acc : List Char) :
    run quote (.position acc) cs = ([], .position (acc ++ cs)) := by
  induction cs generalizing acc with
  | nil => simp
  | cons c cs ih =>
    have hc := hcs c (by simp)
    simp [run_cons, Mode.step, hc, ih fun d hd => hcs d (List.mem_cons_of_mem _ hd)]

theorem run_numbered (hq : IsQuote quote) (n : Nat) :
    run quote .idle (PlaceholderStyle.numbered.placeholder n).toList =
      ([], .position (Nat.toDigits 10 n)) := by
  have hne : '$' ≠ quote := by
    rintro rfl
    exact hq.2 (by decide)
  have hdigits : ∀ c ∈ Nat.toDigits 10 n, c.isDigit = true := fun c hc =>
    Nat.isDigit_of_mem_toDigits (by omega) (by omega) hc
  simp [PlaceholderStyle.placeholder, run_cons, Mode.step, start, hne, run_digits hdigits]

theorem run_questionMark (hq : IsQuote quote) (n : Nat) :
    run quote .idle (PlaceholderStyle.questionMark.placeholder n).toList =
      ([.mark '?'], .idle) := by
  have hne : '?' ≠ quote := by
    rintro rfl
    exact hq.2 (by decide)
  have hmark : start quote '?' = ([.mark '?'], .idle) := by
    rw [start, if_neg hne]
    rfl
  simp [PlaceholderStyle.placeholder, run_cons, Mode.step, hmark]

/-! ### Pieces -/

/-- A part that does not fuse with what came before is lexed on its own. -/
theorem tokens_append_of_apart (hq : IsQuote quote) (hm : m.edge? = some e) {cs ds : List Char}
    {ts : List (Token Nat)} {m' : Mode} (hne : cs ≠ [])
    (hapart : e.Apart (edgeOf quote (cs.head hne))) (hrun : run quote .idle cs = (ts, m')) :
    tokens quote m (cs ++ ds) = m.flush ++ (ts ++ tokens quote m' ds) := by
  obtain ⟨c, cs, rfl⟩ := List.exists_cons_of_ne_nil hne
  have hc : e.Apart (edgeOf quote c) := hapart
  rw [List.cons_append, tokens_eq_flush_append hq hm hc, ← List.cons_append, tokens_append, hrun]

variable {d : Dialect} {ps : List Piece}

/-- The text of a tidy layout is lexed piece by piece. -/
theorem tokens_texts (hd : d.IsPlain) (hm : m.edge? = some e) (hps : Tidy e ps) (n : Nat) :
    tokens d.identifierQuote m ((Piece.texts d n ps).flatMap String.toList) =
      m.flush ++ Piece.tokens d n ps := by
  have hq : IsQuote d.identifierQuote := hd.quote
  induction ps generalizing m e n with
  | nil => simp [Piece.texts, Piece.tokens]
  | cons p ps ih =>
    cases p with
    | text s =>
      obtain ⟨⟨hne, hplain⟩, hapart, hrest⟩ := hps
      -- The first character keeps the text apart from what is before it, the last one is what the
      -- next piece has to be apart from.
      have hfirst : Piece.firstEdge s = edgeOf d.identifierQuote (s.toList.head hne) := by
        rw [edgeOf_of_isPlainChar hq (hplain _ (List.head_mem hne))]
        simp [Piece.firstEdge, List.head?_eq_some_head hne]
      have hlast : (run d.identifierQuote .idle s.toList).2.edge? = some (Piece.lastEdge s) := by
        rw [edge?_run hq rfl hne hplain]
        simp [Piece.lastEdge, List.getLast?_eq_some_getLast hne]
      rw [Piece.texts, List.flatMap_cons,
        tokens_append_of_apart hq hm hne (hfirst ▸ hapart) rfl, ih hlast hrest]
      simp [Piece.tokens, lex, tokens]
    | identifier name =>
      obtain ⟨hapart, hrest⟩ := hps
      rw [Piece.texts, List.flatMap_cons, tokens_append_of_apart hq hm
        (by simp [Dialect.quoteIdentifier]) (.inr (by simpa [Dialect.quoteIdentifier, edgeOf]))
        (run_quoteIdentifier d name), ih rfl hrest]
      simp [Piece.tokens, Mode.flush]
    | parameter v =>
      obtain ⟨hapart, hrest⟩ := hps
      have hmarks : '$' ≠ d.identifierQuote ∧ '?' ≠ d.identifierQuote := by
        constructor <;> intro h <;> exact hq.2 (by simp [← h])
      rw [Piece.texts, List.flatMap_cons, Dialect.placeholder, Piece.tokens]
      cases d.placeholderStyle with
      | numbered =>
        rw [tokens_append_of_apart hq hm (by simp [PlaceholderStyle.placeholder])
          (.inr (by simpa [PlaceholderStyle.placeholder, edgeOf, hmarks.1])) (run_numbered hq n),
          ih rfl hrest]
        simp [Mode.flush, PlaceholderStyle.token, Nat.ofDigitChars_toDigits]
      | questionMark =>
        rw [tokens_append_of_apart hq hm (by simp [PlaceholderStyle.placeholder])
          (.inr (by simpa [PlaceholderStyle.placeholder, edgeOf, hmarks.2]))
          (run_questionMark hq n), ih rfl hrest.of_edge]
        simp [Mode.flush, PlaceholderStyle.token]
    | quotedText s =>
      obtain ⟨hapart, hrest⟩ := hps
      rw [Piece.texts, List.flatMap_cons, tokens_append_of_apart hq hm
        (by simp [Piece.literal]) (.inr (by simpa [Piece.literal, edgeOf])) (run_literal hq s),
        ih rfl hrest]
      simp [Piece.tokens, Mode.flush]
    | notice k => exact ih hm hps n

end Lexer

/-- The text of a tidy layout has the tokens of its pieces. -/
theorem Piece.lex_sql {d : Dialect} (hd : d.IsPlain) {ps : List Piece} (hps : Tidy .blank ps) :
    lex d.identifierQuote (Piece.sql d ps) = Piece.tokens d 1 ps := by
  rw [lex, Piece.sql, String.toList_join]
  exact Lexer.tokens_texts hd rfl hps 1

/-- A view of tokens that sees nothing in fixed text sees the other pieces alone. -/
theorem Piece.view_tokens {d : Dialect} (hd : d.IsPlain) {β : Type} {f : Token Nat → Option β}
    (hf : ∀ {t : Token Nat}, t.isFixed = true → f t = none) {e : Edge} {ps : List Piece}
    (hps : Tidy e ps) (n : Nat) :
    (tokens d n ps).filterMap f = (regions d n ps).filterMap f := by
  induction ps generalizing e n with
  | nil => rfl
  | cons p ps ih =>
    cases p with
    | text s =>
      obtain ⟨⟨-, hplain⟩, -, hrest⟩ := hps
      have hnone : (lex d.identifierQuote s).filterMap f = [] :=
        List.filterMap_eq_nil_iff.2 fun t ht =>
          hf (Lexer.isFixed_of_mem_tokens hd.quote rfl hplain t ht)
      rw [tokens, List.filterMap_append, hnone, List.nil_append, ih hrest n, regions]
    | identifier name => rw [tokens, regions, List.filterMap_cons, List.filterMap_cons, ih hps.2 n]
    | parameter v =>
      rw [tokens, regions, List.filterMap_cons, List.filterMap_cons, ih hps.2 (n + 1)]
    | quotedText s => rw [tokens, regions, List.filterMap_cons, List.filterMap_cons, ih hps.2 n]
    | notice k => exact ih hps n

/-- The names that the lexer finds in a tidy layout are those that it quotes. -/
theorem Piece.identifiers_tokens {d : Dialect} (hd : d.IsPlain) {e : Edge} {ps : List Piece}
    (hps : Tidy e ps) (n : Nat) :
    (tokens d n ps).filterMap Token.identifier? = identifiers ps := by
  rw [view_tokens hd Token.identifier?_of_isFixed hps n]
  clear hps
  induction ps generalizing n with
  | nil => rfl
  | cons p ps ih =>
    cases p with
    | identifier name =>
      have hnames : identifiers (.identifier name :: ps) = name :: identifiers ps := rfl
      rw [hnames, ← ih n]
      rfl
    | parameter v =>
      have hnone : (d.placeholderStyle.token n).identifier? = none := by
        cases d.placeholderStyle <;> rfl
      rw [regions, List.filterMap_cons, hnone]
      exact ih (n + 1)
    | text s => exact ih n
    | quotedText s => exact ih n
    | notice k => exact ih n

/-- A plain text has the same tokens for all characters that quote identifiers. -/
theorem lex_eq_of_isPlainText {quote quote' : Char} (hq : Lexer.IsQuote quote)
    (hq' : Lexer.IsQuote quote') {s : String} (hs : IsPlainText s) : lex quote s = lex quote' s :=
  Lexer.tokens_eq_of_isPlainChar hq hq' rfl hs.2

/-- The number after a keyword is a word. -/
theorem lex_numbered {quote : Char} (hq : Lexer.IsQuote quote) {keyword w : String}
    (hrun : Lexer.run quote .idle keyword.toList = ([.word w], .idle)) (n : Nat) :
    lex quote (keyword ++ toString n) = [.word w, .word (toString n)] := by
  obtain ⟨hne, hchars⟩ := isPlainWord_toString n
  rw [lex, String.toList_append, Lexer.tokens_append, hrun, Lexer.tokens_word hq hne hchars,
    String.ofList_toList]
  rfl

/-- The words among the tokens of pieces are those of their fixed texts. -/
theorem Piece.word_mem_tokens_iff {d : Dialect} {w : String} {n : Nat} {ps : List Piece} :
    .word w ∈ tokens d n ps ↔ ∃ s, .text s ∈ ps ∧ .word w ∈ lex d.identifierQuote s := by
  induction ps generalizing n with
  | nil => simp [tokens]
  | cons p ps ih =>
    cases p with
    | text s => simp [tokens, ih]
    | parameter v =>
      have hne : .word w ≠ d.placeholderStyle.token n := by cases d.placeholderStyle <;> nofun
      simp [tokens, ih, hne]
    | identifier name => simp [tokens, ih]
    | quotedText s => simp [tokens, ih]
    | notice k => simp [tokens, ih]

/-- **The text of a compiled statement has the tokens of its pieces.** -/
theorem Statement.lex_compile {d : Dialect} (hd : d.IsPlain) (s : Statement) :
    lex d.identifierQuote (s.compile d).sql = Piece.tokens d 1 (s.pieces d) :=
  Piece.lex_sql hd (s.tidy_pieces hd)

end TypedSql
