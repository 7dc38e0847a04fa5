import Mathlib.Data.List.Chain
import TypedSql.Dialect.Config
import TypedSql.Proofs.Lexing
import TypedSql.Proofs.Vocabulary

/-!
# Quoted regions

A reader that knows how a database quotes, and nothing else, splits a text into quoted regions and
the characters between them. `scan` is such a reader: a quote opens a region, a doubled quote stands
for one, a single one closes the region, and where texts are quoted a backslash takes the character
after it along. `Statement.scan_compile` says that nothing gets out of its quotes in the text of a
compiled statement: the regions are the names and the separators that were quoted, in order, and
between them there are no quotes, no semicolons and no openings of comments.
-/

namespace TypedSql

open Piece (Edge Tidy)

/-- How a database marks the quoted regions of a text. -/
structure QuotingRule where
  /-- The character that encloses identifiers. -/
  identifierQuote : Char
  /-- Single quotes enclose texts. -/
  quotesTexts : Bool

/-- The quoting rule of a built-in dialect. -/
def DialectKind.quotingRule : DialectKind → QuotingRule
  | .generic | .postgres | .sqlite => ⟨'"', false⟩
  | .mysql => ⟨'\x60', true⟩

/-- The content of a quoted region. -/
inductive Region
  | identifier (name : String)
  | quotedText (s : String)
  deriving DecidableEq

/-- What a reader of quoted regions sees. -/
inductive Mark
  /-- A character outside all regions. -/
  | plain (c : Char)
  | region (r : Region)
  /-- A region that does not end. -/
  | unfinished
  deriving DecidableEq

/-- The region that a mark is. -/
def Mark.region? : Mark → Option Region
  | .region r => some r
  | _ => none

/-- The region that is written for a piece. -/
def Piece.region? : Piece → Option Region
  | .identifier name => some (.identifier name)
  | .quotedText s => some (.quotedText s)
  | _ => none

namespace Scanner

/-- Where the reader is, with the content of the region so far. -/
inductive Mode
  | outside
  | identifier (cs : List Char)
  /-- After a quote in an identifier, which ends it unless it is doubled. -/
  | identifierEnd (cs : List Char)
  | text (cs : List Char)
  /-- After a backslash in a text. -/
  | textEscape (cs : List Char)
  /-- After a quote in a text, which ends it unless it is doubled. -/
  | textEnd (cs : List Char)

/-- What a backslash and the character after it stand for in a text. -/
def unescape : Char → List Char
  | '0' => ['\x00']
  | 'b' => ['\x08']
  | 'n' => ['\n']
  | 'r' => ['\r']
  | 't' => ['\t']
  | 'Z' => ['\x1a']
  | '%' => ['\\', '%']
  | '_' => ['\\', '_']
  | c => [c]

/-- The marks that the end of the text completes. -/
def Mode.flush : Mode → List Mark
  | .outside => []
  | .identifierEnd cs => [.region (.identifier (String.ofList cs))]
  | .textEnd cs => [.region (.quotedText (String.ofList cs))]
  | .identifier _ | .text _ | .textEscape _ => [.unfinished]

/-- A character outside all regions. -/
def start (rule : QuotingRule) (c : Char) : List Mark × Mode :=
  if c = rule.identifierQuote then ([], .identifier [])
  else if rule.quotesTexts = true ∧ c = '\'' then ([], .text [])
  else ([.plain c], .outside)

/-- A character after the region of a mode has ended. -/
def Mode.restart (rule : QuotingRule) (m : Mode) (c : Char) : List Mark × Mode :=
  (m.flush ++ (start rule c).1, (start rule c).2)

/-- Read a character: the marks that it completes, and the mode after it. -/
def Mode.step (rule : QuotingRule) (m : Mode) (c : Char) : List Mark × Mode :=
  match m with
  | .outside => start rule c
  | .identifier cs =>
    if c = rule.identifierQuote then ([], .identifierEnd cs) else ([], .identifier (cs ++ [c]))
  | .identifierEnd cs =>
    if c = rule.identifierQuote then ([], .identifier (cs ++ [c])) else m.restart rule c
  | .text cs =>
    if c = '\'' then ([], .textEnd cs)
    else if c = '\\' then ([], .textEscape cs)
    else ([], .text (cs ++ [c]))
  | .textEscape cs => ([], .text (cs ++ unescape c))
  | .textEnd cs => if c = '\'' then ([], .text (cs ++ [c])) else m.restart rule c

/-- The marks of characters, read from a mode to the end of the text. -/
def marks (rule : QuotingRule) : Mode → List Char → List Mark
  | m, [] => m.flush
  | m, c :: cs => (m.step rule c).1 ++ marks rule (m.step rule c).2 cs

end Scanner

/-- The quoted regions of a text and the characters between them. -/
def scan (rule : QuotingRule) (sql : String) : List Mark :=
  Scanner.marks rule .outside sql.toList

/-- The marks of pieces for a dialect, where the next placeholder has the given position. -/
def Piece.marks (d : Dialect) : Nat → List Piece → List Mark
  | _, [] => []
  | n, .text s :: ps => s.toList.map .plain ++ marks d n ps
  | n, .identifier name :: ps => .region (.identifier name) :: marks d n ps
  | n, .parameter _ :: ps => (d.placeholder n).toList.map .plain ++ marks d (n + 1) ps
  | n, .quotedText s :: ps => .region (.quotedText s) :: marks d n ps
  | n, .notice _ :: ps => marks d n ps

/-! ### The characters outside of regions -/

/-- A character of fixed text or of a placeholder. -/
def isUnquotedChar (c : Char) : Bool :=
  isPlainChar c || c == '$' || c == '?'

theorem isUnquotedChar_of_isPlainChar {c : Char} (h : isPlainChar c = true) :
    isUnquotedChar c = true := by
  simp [isUnquotedChar, h]

/-- No quote and no semicolon is written outside of regions. -/
theorem not_mem_of_isUnquotedChar {c : Char} (h : isUnquotedChar c = true) :
    c ∉ ['"', '\x60', '\'', ';'] := by
  intro hc
  simp only [List.mem_cons, List.not_mem_nil, or_false] at hc
  rcases hc with rfl | rfl | rfl | rfl <;> exact absurd h (by decide)

theorem Lexer.IsQuote.ne_of_isUnquotedChar {quote c : Char} (hq : Lexer.IsQuote quote)
    (hc : isUnquotedChar c = true) : c ≠ quote := by
  simp only [isUnquotedChar, Bool.or_eq_true, beq_iff_eq] at hc
  rcases hc with (hc | rfl) | rfl
  · exact hq.ne hc
  · intro h
    exact hq.2 (by simp [← h])
  · intro h
    exact hq.2 (by simp [← h])

theorem PlaceholderStyle.placeholder_ne_nil (style : PlaceholderStyle) (n : Nat) :
    (style.placeholder n).toList ≠ [] := by
  cases style <;> simp [PlaceholderStyle.placeholder]

theorem isUnquotedChar_of_mem_placeholder {style : PlaceholderStyle} {n : Nat} {c : Char}
    (hc : c ∈ (style.placeholder n).toList) :
    isUnquotedChar c = true ∧ isOperatorChar c = false := by
  have hdigit : c ∈ Nat.toDigits 10 n → isWordChar c = true := fun h =>
    Lexer.isWordChar_of_isDigit (Nat.isDigit_of_mem_toDigits (by omega) (by omega) h)
  cases style with
  | questionMark =>
    obtain rfl : c = '?' := by simpa [PlaceholderStyle.placeholder] using hc
    decide
  | numbered =>
    simp only [PlaceholderStyle.placeholder, String.toList_append, List.mem_append] at hc
    rcases hc with hc | hc
    · obtain rfl : c = '$' := by simpa using hc
      decide
    · have hword := hdigit (by simpa using hc)
      refine ⟨isUnquotedChar_of_isPlainChar (by simp [isPlainChar, hword]), ?_⟩
      by_contra h
      rw [Lexer.not_isWordChar_of_isOperatorChar (by simpa using h)] at hword
      cases hword

namespace Scanner

variable {rule : QuotingRule} {m : Mode} {e : Edge}

/-- A region may have ended, and then the last thing written is its quote. -/
def Mode.Shows : Mode → Edge → Prop
  | .outside, _ => True
  | .identifierEnd _, e | .textEnd _, e => e = .quote
  | _, _ => False

theorem Mode.shows_outside (e : Edge) : Mode.outside.Shows e := trivial

theorem Mode.shows_identifierEnd (cs : List Char) : (Mode.identifierEnd cs).Shows .quote := rfl

theorem Mode.shows_textEnd (cs : List Char) : (Mode.textEnd cs).Shows .quote := rfl

theorem Mode.Shows.eq_outside (hm : m.Shows e) (he : e ≠ .quote) : m = .outside := by
  cases m with
  | outside => rfl
  | identifierEnd cs => exact absurd hm he
  | textEnd cs => exact absurd hm he
  | _ => cases hm

/-- A quoted identifier is read up to its closing quote. -/
theorem marks_doubleQuotes (cs acc rest : List Char) :
    marks rule (.identifier acc)
      (Dialect.doubleQuotes rule.identifierQuote cs ++ rule.identifierQuote :: rest) =
      marks rule (.identifierEnd (acc ++ cs)) rest := by
  induction cs generalizing acc with
  | nil => simp [Dialect.doubleQuotes, marks, Mode.step]
  | cons c cs ih =>
    by_cases h : c = rule.identifierQuote
    · simp [Dialect.doubleQuotes, h, marks, Mode.step, ih]
    · simp [Dialect.doubleQuotes, h, marks, Mode.step, ih]

/-- A quoted text is read up to its closing quote. -/
theorem marks_escapeLiteral (cs acc rest : List Char) :
    marks rule (.text acc) (cs.flatMap Piece.escapeLiteral ++ '\'' :: rest) =
      marks rule (.textEnd (acc ++ cs)) rest := by
  induction cs generalizing acc with
  | nil => simp [marks, Mode.step]
  | cons c cs ih =>
    by_cases hquote : c = '\''
    · simp [Piece.escapeLiteral, hquote, marks, Mode.step, ih]
    · by_cases hescape : c = '\\'
      · simp [Piece.escapeLiteral, hescape, marks, Mode.step, unescape, ih]
      · simp [Piece.escapeLiteral, hquote, hescape, marks, Mode.step, ih]

theorem marks_quoteIdentifier {d : Dialect} (hrule : rule.identifierQuote = d.identifierQuote)
    (name : String) (rest : List Char) :
    marks rule .outside ((d.quoteIdentifier name).toList ++ rest) =
      marks rule (.identifierEnd name.toList) rest := by
  have hopen : Mode.step rule .outside d.identifierQuote = ([], .identifier []) := by
    simp [Mode.step, start, hrule]
  rw [Dialect.quoteIdentifier, String.toList_ofList, List.cons_append, List.cons_append,
    List.append_assoc, List.singleton_append, marks, hopen, ← hrule, marks_doubleQuotes]
  simp

theorem marks_literal (hrule : rule.quotesTexts = true) (hquote : '\'' ≠ rule.identifierQuote)
    (s : String) (rest : List Char) :
    marks rule .outside ((Piece.literal s).toList ++ rest) =
      marks rule (.textEnd s.toList) rest := by
  have hopen : Mode.step rule .outside '\'' = ([], .text []) := by
    simp [Mode.step, start, hrule, hquote]
  rw [Piece.literal, String.toList_ofList, List.cons_append, List.cons_append,
    List.append_assoc, List.singleton_append, marks, hopen, marks_escapeLiteral]
  simp

/-- A character that is no quote ends a region that may end, and stands outside. -/
theorem marks_cons_plain (hm : m.Shows e) {c : Char} (hquote : c ≠ rule.identifierQuote)
    (htext : c ≠ '\'') (cs : List Char) :
    marks rule m (c :: cs) = m.flush ++ .plain c :: marks rule .outside cs := by
  have hstart : start rule c = ([.plain c], .outside) := by simp [start, hquote, htext]
  cases m with
  | outside => simp [marks, Mode.step, hstart, Mode.flush]
  | identifierEnd acc => simp [marks, Mode.step, hquote, Mode.restart, hstart]
  | textEnd acc => simp [marks, Mode.step, htext, Mode.restart, hstart]
  | _ => cases hm

/-- Characters that are no quotes stand outside. -/
theorem marks_plain (hm : m.Shows e) {cs : List Char} (hne : cs ≠ [])
    (hcs : ∀ c ∈ cs, c ≠ rule.identifierQuote ∧ c ≠ '\'') (rest : List Char) :
    marks rule m (cs ++ rest) = m.flush ++ (cs.map .plain ++ marks rule .outside rest) := by
  induction cs generalizing m e with
  | nil => exact absurd rfl hne
  | cons c cs ih =>
    obtain ⟨⟨hquote, htext⟩, hcs⟩ := List.forall_mem_cons.1 hcs
    rw [List.cons_append, marks_cons_plain hm hquote htext]
    rcases cs with _ | ⟨c', cs⟩
    · rfl
    · rw [ih (Mode.shows_outside .blank) (by simp) hcs]
      rfl

/-- The text of a tidy layout is read piece by piece. -/
theorem marks_texts {d : Dialect} (hd : d.IsPlain) {ps : List Piece}
    (hidentifiers : rule.identifierQuote = d.identifierQuote)
    (htexts : ∀ s, .quotedText s ∈ ps → rule.quotesTexts = true)
    (hm : m.Shows e) (hps : Tidy e ps) (n : Nat) :
    marks rule m ((Piece.texts d n ps).flatMap String.toList) = m.flush ++ Piece.marks d n ps := by
  have hq : Lexer.IsQuote rule.identifierQuote := hidentifiers ▸ hd.quote
  have hpass : ∀ c, isUnquotedChar c = true → c ≠ rule.identifierQuote ∧ c ≠ '\'' := fun c hc =>
    ⟨hq.ne_of_isUnquotedChar hc, fun h => not_mem_of_isUnquotedChar hc (by simp [h])⟩
  induction ps generalizing m e n with
  | nil => simp [Piece.texts, Piece.marks, marks]
  | cons p ps ih =>
    have ih {m' : Mode} {e' : Edge} := ih (m := m') (e := e')
      fun s hs => htexts s (List.mem_cons_of_mem _ hs)
    cases p with
    | text s =>
      obtain ⟨⟨hne, hplain⟩, -, hrest⟩ := hps
      rw [Piece.texts, List.flatMap_cons, marks_plain hm hne
        fun c hc => hpass c (isUnquotedChar_of_isPlainChar (hplain c hc)), ih (Mode.shows_outside _) hrest]
      rfl
    | identifier name =>
      obtain ⟨hapart, hrest⟩ := hps
      rw [hm.eq_outside hapart, Piece.texts, List.flatMap_cons,
        marks_quoteIdentifier hidentifiers, ih (Mode.shows_identifierEnd _) hrest]
      simp [Mode.flush, Piece.marks]
    | parameter v =>
      obtain ⟨-, hrest⟩ := hps
      rw [Piece.texts, List.flatMap_cons, Dialect.placeholder, marks_plain hm
        (PlaceholderStyle.placeholder_ne_nil _ _)
        fun c hc => hpass c (isUnquotedChar_of_mem_placeholder hc).1, ih (Mode.shows_outside _) hrest]
      rfl
    | quotedText s =>
      obtain ⟨hapart, hrest⟩ := hps
      have hquote : '\'' ≠ rule.identifierQuote := fun h => hq.2 (by simp [← h])
      rw [hm.eq_outside hapart, Piece.texts, List.flatMap_cons,
        marks_literal (htexts s (by simp)) hquote, ih (Mode.shows_textEnd _) hrest]
      simp [Mode.flush, Piece.marks]
    | notice k => exact ih hm hps n

end Scanner

/-! ### The marks of pieces -/

namespace Piece

variable {d : Dialect} {e : Edge} {ps : List Piece}

theorem filterMap_region?_plain (cs : List Char) :
    (cs.map Mark.plain).filterMap Mark.region? = [] := by
  rw [List.filterMap_map]
  exact List.filterMap_eq_nil_iff.2 fun c _ => rfl

theorem regions_marks (d : Dialect) (n : Nat) (ps : List Piece) :
    (marks d n ps).filterMap Mark.region? = ps.filterMap region? := by
  induction ps generalizing n with
  | nil => rfl
  | cons p ps ih =>
    cases p with
    | text s => rw [marks, List.filterMap_append, filterMap_region?_plain, ih]; rfl
    | parameter v => rw [marks, List.filterMap_append, filterMap_region?_plain, ih]; rfl
    | identifier name => rw [marks, List.filterMap_cons, ih]; rfl
    | quotedText s => rw [marks, List.filterMap_cons, ih]; rfl
    | notice k => exact ih n

/-- All regions of a layout end, and no quote and no semicolon is outside of them. -/
theorem mem_marks (hps : Tidy e ps) (n : Nat) :
    ∀ a ∈ marks d n ps, a ≠ .unfinished ∧ ∀ c, a = .plain c → isUnquotedChar c = true := by
  have hrun : ∀ cs : List Char, (∀ c ∈ cs, isUnquotedChar c = true) →
      ∀ a ∈ cs.map Mark.plain, a ≠ .unfinished ∧ ∀ c, a = .plain c → isUnquotedChar c = true := by
    intro cs hcs a ha
    obtain ⟨c, hc, rfl⟩ := List.mem_map.1 ha
    refine ⟨nofun, ?_⟩
    rintro _ ⟨⟩
    exact hcs c hc
  induction ps generalizing e n with
  | nil => nofun
  | cons p ps ih =>
    cases p with
    | text s =>
      obtain ⟨⟨-, hplain⟩, -, hrest⟩ := hps
      exact List.forall_mem_append.2
        ⟨hrun _ fun c hc => isUnquotedChar_of_isPlainChar (hplain c hc), ih hrest n⟩
    | identifier name => exact List.forall_mem_cons.2 ⟨⟨nofun, nofun⟩, ih hps.2 n⟩
    | parameter v =>
      exact List.forall_mem_append.2
        ⟨hrun _ fun c hc => (isUnquotedChar_of_mem_placeholder hc).1, ih hps.2 (n + 1)⟩
    | quotedText s => exact List.forall_mem_cons.2 ⟨⟨nofun, nofun⟩, ih hps.2 n⟩
    | notice k => exact ih hps n

end Piece

/-! ### Comments -/

/-- Two characters side by side open a comment. -/
def OpensComment (a b : Char) : Prop :=
  a = '-' ∧ b = '-' ∨ a = '/' ∧ b = '*'

instance (a b : Char) : Decidable (OpensComment a b) :=
  inferInstanceAs (Decidable (_ ∨ _))

/-- No comment is opened in a text. -/
def CommentFree (s : String) : Prop :=
  s.toList.IsChain fun a b => ¬ OpensComment a b

instance (s : String) : Decidable (CommentFree s) :=
  inferInstanceAs (Decidable (List.IsChain _ _))

/-- Both characters that open a comment are operators. -/
theorem OpensComment.isOperatorChar {a b : Char} (h : OpensComment a b) :
    isOperatorChar a = true ∧ isOperatorChar b = true := by
  rcases h with ⟨rfl, rfl⟩ | ⟨rfl, rfl⟩ <;> decide

theorem commentFree_of_not_isOperatorChar {s : String}
    (h : ∀ c ∈ s.toList, isOperatorChar c = false) : CommentFree s := by
  refine List.Pairwise.isChain (List.pairwise_of_forall_mem_list fun a ha b _ hopens => ?_)
  exact absurd hopens.isOperatorChar.1 (Bool.eq_false_iff.1 (h a ha))

theorem IsPlainWord.not_isOperatorChar {s : String} (hs : IsPlainWord s) :
    ∀ c ∈ s.toList, isOperatorChar c = false := by
  intro c hc
  by_contra h
  have hword := hs.2 c hc
  rw [Lexer.not_isWordChar_of_isOperatorChar (by simpa using h)] at hword
  cases hword

/-- The number after a keyword is no operator. -/
theorem commentFree_number {keyword : String}
    (hkeyword : keyword.toList.any isOperatorChar = false) (n : Nat) :
    CommentFree (keyword ++ toString n) := by
  refine commentFree_of_not_isOperatorChar fun c hc => ?_
  rw [String.toList_append, List.mem_append] at hc
  exact hc.elim (fun hc => Bool.eq_false_iff.2 (List.any_eq_false.1 hkeyword c hc))
    ((isPlainWord_toString n).not_isOperatorChar c)

section Vocabulary

variable {d : Dialect} (hd : d.IsPlain)
  (hlimit : ∀ s, d.unboundedLimit? = some s → CommentFree (" LIMIT " ++ s))
include hd hlimit

/-- No word of a dialect opens a comment. -/
theorem Dialect.Says.commentFree {s : String} (h : d.Says s) : CommentFree s := by
  have hkeywords : ∀ s ∈ keywords, CommentFree s := by decide
  cases h with
  | keyword hs => exact hkeywords s hs
  | operator op =>
    rcases op with op | ⟨ignoresCase, negated⟩ | op
    · cases op <;> decide
    · cases ignoresCase <;> cases negated <;> decide
    · cases op <;> decide
  | quantified op quantifier => cases op <;> cases quantifier <;> decide
  | connective kind => cases kind <;> decide
  | functionName f =>
    exact commentFree_of_not_isOperatorChar (hd.functionName f).not_isOperatorChar
  | truthValue b =>
    exact commentFree_of_not_isOperatorChar (hd.booleanLiteral b).not_isOperatorChar
  | join kind => cases kind <;> decide
  | crossJoin => decide
  | direction direction => cases direction <;> decide
  | placement nulls => cases nulls <;> decide
  | limit n => exact commentFree_number (by decide) n
  | unbounded hs => exact hlimit _ hs
  | offset n => exact commentFree_number (by decide) n

theorem Statement.Says.commentFree {s : String} (h : Statement.Says d s) : CommentFree s := by
  have hkeywords : ∀ s ∈ statementKeywords, CommentFree s := by decide
  cases h with
  | inside h => exact h.commentFree hd hlimit
  | keyword hs => exact hkeywords s hs
  | setOperator op => cases op <;> decide

end Vocabulary

/-- Two marks side by side do not open a comment. -/
def Mark.Quiet (a b : Mark) : Prop :=
  ∀ c c', a = .plain c → b = .plain c' → ¬ OpensComment c c'

theorem Mark.quiet_region_right (a : Mark) (r : Region) : Quiet a (.region r) := nofun

/-- An operator character shows an operator. -/
def Mark.Shows (a : Mark) (e : Edge) : Prop :=
  ∀ c, a = .plain c → isOperatorChar c = true → e = .operator

theorem Mark.shows_region (r : Region) (e : Edge) : (Mark.region r).Shows e := nofun

namespace Piece

theorem isChain_plain_append {a : Mark} {cs : List Char} {rest : List Mark} (hne : cs ≠ [])
    (hcs : cs.IsChain fun a b => ¬ OpensComment a b) (ha : a.Quiet (.plain (cs.head hne)))
    (hrest : (Mark.plain (cs.getLast hne) :: rest).IsChain Mark.Quiet) :
    (a :: (cs.map Mark.plain ++ rest)).IsChain Mark.Quiet := by
  obtain ⟨hjunction, hrest⟩ := List.isChain_cons.1 hrest
  refine List.isChain_cons.2 ⟨?_, List.isChain_append.2 ⟨?_, hrest, ?_⟩⟩
  · intro b hb
    obtain rfl : Mark.plain (cs.head hne) = b := by
      simpa [List.head?_append, List.head?_eq_some_head hne] using hb
    exact ha
  · refine (List.isChain_map _).2 (hcs.imp fun a b h => ?_)
    rintro _ _ ⟨⟩ ⟨⟩
    exact h
  · intro x hx y hy
    obtain rfl : Mark.plain (cs.getLast hne) = x := by
      simpa [List.getLast?_eq_some_getLast hne] using hx
    exact hjunction y hy

variable {d : Dialect} {e : Edge} {ps : List Piece}

/-- Where pieces meet no comment is opened, since operators never stand side by side. -/
theorem isChain_marks (hps : Tidy e ps) (htexts : ∀ s, .text s ∈ ps → CommentFree s) (n : Nat)
    {a : Mark} (ha : a.Shows e) : (a :: marks d n ps).IsChain Mark.Quiet := by
  induction ps generalizing e n a with
  | nil => exact List.isChain_singleton a
  | cons p ps ih =>
    have ih {e' : Edge} (h : Tidy e' ps) := ih h fun s hs => htexts s (List.mem_cons_of_mem _ hs)
    cases p with
    | text s =>
      obtain ⟨⟨hne, hplain⟩, hapart, hrest⟩ := hps
      refine isChain_plain_append hne (htexts s (by simp)) ?_ (ih hrest n ?_)
      · -- Two operators would show the same edge, and that is no blank.
        rintro c _ rfl ⟨⟩ hopens
        obtain ⟨hc, hfirst⟩ := hopens.isOperatorChar
        have he := ha c rfl hc
        have hs : firstEdge s = .operator := by
          simp [firstEdge, List.head?_eq_some_head hne, Edge.ofChar, hfirst,
            Lexer.not_isWordChar_of_isOperatorChar hfirst]
        rw [he, hs] at hapart
        exact absurd hapart (by decide)
      · rintro _ ⟨⟩ hc
        simp [lastEdge, List.getLast?_eq_some_getLast hne, Edge.ofChar, hc,
          Lexer.not_isWordChar_of_isOperatorChar hc]
    | parameter v =>
      have hne := PlaceholderStyle.placeholder_ne_nil d.placeholderStyle n
      have hoperator : ∀ c ∈ (d.placeholder n).toList, isOperatorChar c = false := fun c hc =>
        (isUnquotedChar_of_mem_placeholder hc).2
      refine isChain_plain_append hne (commentFree_of_not_isOperatorChar hoperator) ?_
        (ih hps.2 (n + 1) ?_)
      · rintro c _ rfl ⟨⟩ hopens
        exact absurd hopens.isOperatorChar.2 (Bool.eq_false_iff.1 (hoperator _ (List.head_mem hne)))
      · rintro _ ⟨⟩ hc
        exact absurd hc (Bool.eq_false_iff.1 (hoperator _ (List.getLast_mem hne)))
    | identifier name =>
      exact List.isChain_cons_cons.2
        ⟨Mark.quiet_region_right _ _, ih hps.2 n (Mark.shows_region _ _)⟩
    | quotedText s =>
      exact List.isChain_cons_cons.2
        ⟨Mark.quiet_region_right _ _, ih hps.2 n (Mark.shows_region _ _)⟩
    | notice k => exact ih hps n ha

end Piece

/-! ### Compiled statements -/

namespace DialectKind

theorem isPlain (k : DialectKind) : k.dialect.IsPlain := by
  cases k with
  | generic => exact Dialect.isPlain_generic
  | postgres => exact Dialect.isPlain_postgres
  | sqlite => exact Dialect.isPlain_sqlite
  | mysql => exact Dialect.isPlain_mysql

/-- The rule of a database and the spelling of its dialect agree. -/
theorem quotingRule_eq (k : DialectKind) :
    k.quotingRule = ⟨k.dialect.identifierQuote, k.dialect.separatorClause⟩ := by
  cases k <;> rfl

theorem commentFree_unboundedLimit (k : DialectKind) (s : String)
    (h : k.dialect.unboundedLimit? = some s) : CommentFree (" LIMIT " ++ s) := by
  cases k <;> cases h <;> decide

end DialectKind

/-- The marks of the text of a statement are those of its pieces. -/
theorem Statement.scan_eq_marks (k : DialectKind) (s : Statement) :
    scan k.quotingRule (s.compile k.dialect).sql = Piece.marks k.dialect 1 (s.pieces k.dialect) := by
  rw [scan, compile, Compiled.ofPieces, Piece.sql, String.toList_join, k.quotingRule_eq]
  exact Scanner.marks_texts k.isPlain rfl s.emitted_pieces.2 (Scanner.Mode.shows_outside .blank)
    (s.tidy_pieces k.isPlain) 1

/-- **Nothing gets out of its quotes**: whatever names and values a statement holds, the quoted
regions of its text are the names and the separators that were quoted, in order, and between them
there are no quotes, no semicolons and no openings of comments. -/
theorem Statement.scan_compile (k : DialectKind) (s : Statement) :
    (scan k.quotingRule (s.compile k.dialect).sql).filterMap Mark.region? =
        (s.pieces k.dialect).filterMap Piece.region? ∧
      .unfinished ∉ scan k.quotingRule (s.compile k.dialect).sql ∧
      (∀ c, .plain c ∈ scan k.quotingRule (s.compile k.dialect).sql →
        c ∉ ['"', '\x60', '\'', ';']) ∧
      ¬ [.plain '-', .plain '-'] <:+: scan k.quotingRule (s.compile k.dialect).sql ∧
      ¬ [.plain '/', .plain '*'] <:+: scan k.quotingRule (s.compile k.dialect).sql := by
  rw [s.scan_eq_marks k]
  have htidy := s.tidy_pieces k.isPlain
  have hmarks := Piece.mem_marks (d := k.dialect) htidy 1
  have hquiet : (Piece.marks k.dialect 1 (s.pieces k.dialect)).IsChain Mark.Quiet :=
    (Piece.isChain_marks (a := .unfinished) htidy
      (fun t ht => (s.emitted_pieces.1 t ht).commentFree k.isPlain k.commentFree_unboundedLimit)
      1 nofun).tail
  have hopening : ∀ c c', OpensComment c c' →
      ¬ [.plain c, .plain c'] <:+: Piece.marks k.dialect 1 (s.pieces k.dialect) := by
    intro c c' hopens hpart
    have hpair := List.IsChain.infix hquiet hpart
    exact List.isChain_pair.1 hpair c c' rfl rfl hopens
  refine ⟨Piece.regions_marks _ 1 _, fun h => (hmarks _ h).1 rfl, fun c hc => ?_, ?_, ?_⟩
  · exact not_mem_of_isUnquotedChar ((hmarks _ hc).2 c rfl)
  · exact hopening '-' '-' (by decide)
  · exact hopening '/' '*' (by decide)

end TypedSql
