/-!
# Tokens of SQL text

`lex` splits a text into tokens, knowing nothing but the character that quotes identifiers. Words
and operators are maximal runs of their characters; a quoted region ends at the first quote that is
not doubled, and in a quoted text a backslash protects the character after it; `$` and the digits
after it are a placeholder. The lexer is a machine with one step for each character, so that a text
is lexed part by part (`tokens_append`).
-/

namespace TypedSql

/-- A token of a text whose placeholders carry data of some type. -/
inductive Token (α : Type)
  /-- A keyword, the name of a function or a number. -/
  | word (w : String)
  /-- An operator. -/
  | operator (s : String)
  /-- A character that stands for itself, such as a parenthesis. -/
  | mark (c : Char)
  /-- A quoted identifier. -/
  | identifier (name : String)
  /-- A quoted text. -/
  | quotedText (s : String)
  /-- A placeholder. -/
  | placeholder (a : α)
  /-- A quoted region that does not end. -/
  | unfinished
  deriving DecidableEq

namespace Token

variable {α : Type}

/-- The placeholder that a token is. -/
def placeholder? : Token α → Option α
  | .placeholder a => some a
  | _ => none

/-- The name that a token quotes. -/
def identifier? : Token α → Option String
  | .identifier name => some name
  | _ => none

/-- A word, an operator or a character that stands for itself. -/
def isFixed : Token α → Bool
  | .word _ | .operator _ | .mark _ => true
  | _ => false

theorem placeholder?_of_isFixed {t : Token α} (h : t.isFixed = true) : t.placeholder? = none := by
  cases t <;> first | rfl | cases h

theorem identifier?_of_isFixed {t : Token α} (h : t.isFixed = true) : t.identifier? = none := by
  cases t <;> first | rfl | cases h

end Token

/-- A character of words and numbers. -/
def isWordChar (c : Char) : Bool :=
  c.isAlphanum || c == '_'

/-- A character of operators. -/
def isOperatorChar (c : Char) : Bool :=
  ['=', '!', '<', '>', '+', '-', '*', '/'].contains c

namespace Lexer

/-- What the lexer is in the middle of, with the characters it has seen of it. -/
inductive Mode
  | idle
  | word (cs : List Char)
  | operator (cs : List Char)
  | position (cs : List Char)
  | identifier (cs : List Char)
  /-- After a quote in an identifier, which ends it unless it is doubled. -/
  | identifierEnd (cs : List Char)
  | text (cs : List Char)
  /-- After a backslash in a quoted text. -/
  | textEscape (cs : List Char)
  /-- After a quote in a quoted text, which ends it unless it is doubled. -/
  | textEnd (cs : List Char)

/-- The tokens that the end of the text completes. -/
def Mode.flush : Mode → List (Token Nat)
  | .idle => []
  | .word cs => [.word (String.ofList cs)]
  | .operator cs => [.operator (String.ofList cs)]
  | .position cs => [.placeholder (Nat.ofDigitChars 10 cs 0)]
  | .identifierEnd cs => [.identifier (String.ofList cs)]
  | .textEnd cs => [.quotedText (String.ofList cs)]
  | .identifier _ | .text _ | .textEscape _ => [.unfinished]

/-- A character with which nothing that came before goes on. -/
def start (quote c : Char) : List (Token Nat) × Mode :=
  if c = quote then ([], .identifier [])
  else if c = '\'' then ([], .text [])
  else if c = '$' then ([], .position [])
  else if isWordChar c then ([], .word [c])
  else if isOperatorChar c then ([], .operator [c])
  else if c = ' ' then ([], .idle)
  else ([.mark c], .idle)

/-- A character after the token of a mode has ended. -/
def Mode.restart (quote : Char) (m : Mode) (c : Char) : List (Token Nat) × Mode :=
  (m.flush ++ (start quote c).1, (start quote c).2)

/-- Read a character: the tokens that it completes, and the mode after it. -/
def Mode.step (quote : Char) (m : Mode) (c : Char) : List (Token Nat) × Mode :=
  match m with
  | .idle => start quote c
  | .word cs => if isWordChar c then ([], .word (cs ++ [c])) else m.restart quote c
  | .operator cs => if isOperatorChar c then ([], .operator (cs ++ [c])) else m.restart quote c
  | .position cs => if c.isDigit then ([], .position (cs ++ [c])) else m.restart quote c
  | .identifier cs =>
    if c = quote then ([], .identifierEnd cs) else ([], .identifier (cs ++ [c]))
  | .identifierEnd cs =>
    if c = quote then ([], .identifier (cs ++ [c])) else m.restart quote c
  | .text cs =>
    if c = '\'' then ([], .textEnd cs)
    else if c = '\\' then ([], .textEscape cs)
    else ([], .text (cs ++ [c]))
  | .textEscape cs => ([], .text (cs ++ [c]))
  | .textEnd cs => if c = '\'' then ([], .text (cs ++ [c])) else m.restart quote c

/-- Read characters: the tokens that they complete, and the mode after them. -/
def run (quote : Char) : Mode → List Char → List (Token Nat) × Mode
  | m, [] => ([], m)
  | m, c :: cs =>
    let (ts, m) := m.step quote c
    let (us, m) := run quote m cs
    (ts ++ us, m)

/-- The tokens of characters, read from a mode to the end of the text. -/
def tokens (quote : Char) (m : Mode) (cs : List Char) : List (Token Nat) :=
  (run quote m cs).1 ++ (run quote m cs).2.flush

@[simp] theorem run_nil (quote : Char) (m : Mode) : run quote m [] = ([], m) := rfl

theorem run_cons (quote : Char) (m : Mode) (c : Char) (cs : List Char) :
    run quote m (c :: cs) =
      ((m.step quote c).1 ++ (run quote (m.step quote c).2 cs).1,
        (run quote (m.step quote c).2 cs).2) := rfl

theorem run_append (quote : Char) (m : Mode) (cs ds : List Char) :
    run quote m (cs ++ ds) =
      ((run quote m cs).1 ++ (run quote (run quote m cs).2 ds).1,
        (run quote (run quote m cs).2 ds).2) := by
  induction cs generalizing m with
  | nil => rfl
  | cons c cs ih => simp [run_cons, ih]

@[simp] theorem tokens_nil (quote : Char) (m : Mode) : tokens quote m [] = m.flush := rfl

theorem tokens_cons (quote : Char) (m : Mode) (c : Char) (cs : List Char) :
    tokens quote m (c :: cs) = (m.step quote c).1 ++ tokens quote (m.step quote c).2 cs := by
  simp [tokens, run_cons]

/-- A text is lexed part by part, from the mode that the first part leaves. -/
theorem tokens_append (quote : Char) (m : Mode) (cs ds : List Char) :
    tokens quote m (cs ++ ds) = (run quote m cs).1 ++ tokens quote (run quote m cs).2 ds := by
  simp [tokens, run_append]

/-- Where a token has ended, lexing goes on as at the start of a text. -/
theorem tokens_cons_of_restart {quote : Char} {m : Mode} {c : Char}
    (h : m.step quote c = m.restart quote c) (cs : List Char) :
    tokens quote m (c :: cs) = m.flush ++ tokens quote .idle (c :: cs) := by
  rw [tokens_cons, tokens_cons, h]
  simp [Mode.restart, Mode.step]

end Lexer

/-- The tokens of a text in which a character quotes identifiers. -/
def lex (quote : Char) (sql : String) : List (Token Nat) :=
  Lexer.tokens quote .idle sql.toList

end TypedSql
