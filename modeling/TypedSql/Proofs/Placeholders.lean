import Mathlib.Data.List.Nodup
import TypedSql.Proofs.Lexing
import TypedSql.Proofs.Literals

/-!
# Numbered placeholders

A statement is written as a sequence of texts, of which some are placeholders that stand for values.
`Statement.written` is this sequence, `Statement.placeholders` the placeholders of it with their
values. Where placeholders are numbered, `compile_placeholders` says that they are numbered from one
without a gap, and that the parameter of a number is the literal written there; the lexer finds the
same numbers in the text.
-/

namespace TypedSql

open Piece (Edge Tidy)

/-- A text that is written, and the value that it stands for if it is a placeholder. -/
structure Emission where
  text : String
  value? : Option Value

/-- The placeholder that an emission is, with its value. -/
def Emission.placeholder? (e : Emission) : Option (String × Value) :=
  e.value?.map fun v => (e.text, v)

namespace Piece

/-- What is written for pieces, where the next placeholder has the given position. -/
def written (d : Dialect) : Nat → List Piece → List Emission
  | _, [] => []
  | n, .text s :: ps => ⟨s, none⟩ :: written d n ps
  | n, .identifier name :: ps => ⟨d.quoteIdentifier name, none⟩ :: written d n ps
  | n, .parameter v :: ps => ⟨d.placeholder n, some v⟩ :: written d (n + 1) ps
  | n, .quotedText s :: ps => ⟨literal s, none⟩ :: written d n ps
  | n, .notice _ :: ps => written d n ps

theorem map_text_written (d : Dialect) (n : Nat) (ps : List Piece) :
    (written d n ps).map Emission.text = texts d n ps := by
  induction ps generalizing n with
  | nil => rfl
  | cons p ps ih => cases p <;> simp [written, texts, ih]

/-- The placeholders that are written count up, one for each value. -/
theorem placeholders_written (d : Dialect) (n : Nat) (ps : List Piece) :
    (written d n ps).filterMap Emission.placeholder? =
      ((parameters ps).zipIdx n).map fun p => (d.placeholder p.2, p.1) := by
  induction ps generalizing n with
  | nil => rfl
  | cons p ps ih =>
    cases p with
    | parameter v =>
      have hparameters : parameters (.parameter v :: ps) = v :: parameters ps := rfl
      rw [hparameters, List.zipIdx_cons, List.map_cons, ← ih (n + 1)]
      rfl
    | text s => exact ih n
    | identifier name => exact ih n
    | quotedText s => exact ih n
    | notice k => exact ih n

end Piece

/-- The numbers that the lexer finds in a tidy layout count up, one for each value. -/
theorem Piece.placeholders_tokens {d : Dialect} (hd : d.IsPlain)
    (hstyle : d.placeholderStyle = .numbered) {e : Edge} {ps : List Piece} (hps : Tidy e ps)
    (n : Nat) :
    (tokens d n ps).filterMap Token.placeholder? = List.range' n (parameters ps).length := by
  rw [view_tokens hd Token.placeholder?_of_isFixed hps n]
  clear hps
  induction ps generalizing n with
  | nil => rfl
  | cons p ps ih =>
    cases p with
    | parameter v =>
      have hlength : (parameters (.parameter v :: ps)).length = (parameters ps).length + 1 := rfl
      rw [regions, hstyle, hlength, List.range'_succ, ← ih (n + 1)]
      rfl
    | text s => exact ih n
    | identifier name => exact ih n
    | quotedText s => exact ih n
    | notice k => exact ih n

/-! ### Statements -/

/-- What is written for a statement, in order. -/
def Statement.written (d : Dialect) (s : Statement) : List Emission :=
  Piece.written d 1 (s.pieces d)

/-- The placeholders that are written for a statement, each with the value it stands for. -/
def Statement.placeholders (d : Dialect) (s : Statement) : List (String × Value) :=
  (s.written d).filterMap Emission.placeholder?

theorem numbered_injective : Function.Injective PlaceholderStyle.numbered.placeholder := by
  intro m n h
  have htoList := congrArg String.toList h
  simp only [PlaceholderStyle.placeholder, String.toList_append] at htoList
  have hdigits : Nat.toDigits 10 m = Nat.toDigits 10 n := by
    simpa using List.append_cancel_left htoList
  rw [← Nat.ofDigitChars_toDigits (b := 10) (n := m) (by omega) (by omega), hdigits,
    Nat.ofDigitChars_toDigits (by omega) (by omega)]

/-- **Numbered placeholders count the literals of a statement from one.** What is written is the
text of the statement; the placeholders in it are `$1`, `$2` and so on, each once, and each stands
for the parameter of its number, which is the literal written there. Where the spellings of the
dialect are plain, the lexer finds the same numbers in the text. -/
theorem Statement.compile_placeholders (d : Dialect) (hd : d.placeholderStyle = .numbered)
    (s : Statement) :
    (s.compile d).sql = String.join ((s.written d).map Emission.text) ∧
      s.placeholders d =
        ((s.compile d).parameters.zipIdx 1).map (fun p => ("$" ++ toString p.2, p.1)) ∧
      (s.compile d).parameters = s.literals d.bindingRule ∧
      ((s.placeholders d).map Prod.fst).Nodup ∧
      (d.IsPlain → (lex d.identifierQuote (s.compile d).sql).filterMap Token.placeholder? =
        List.range' 1 (s.compile d).parameters.length) := by
  have hspelling : d.placeholder = fun n => "$" ++ toString n := by
    funext n
    rw [Dialect.placeholder, hd]
    rfl
  have hplaceholders : s.placeholders d =
      ((s.compile d).parameters.zipIdx 1).map (fun p => ("$" ++ toString p.2, p.1)) := by
    rw [Statement.placeholders, Statement.written, Piece.placeholders_written, hspelling]
    rfl
  refine ⟨?_, hplaceholders, s.parameters_pieces d, ?_, fun hplain => ?_⟩
  · rw [Statement.written, Piece.map_text_written]
    rfl
  -- The numbers count on, and different numbers are spelled differently.
  · have hnames : (s.placeholders d).map Prod.fst =
        (List.range' 1 (s.compile d).parameters.length).map
          PlaceholderStyle.numbered.placeholder := by
      rw [hplaceholders, List.map_map, ← List.zipIdx_map_snd 1 (s.compile d).parameters,
        List.map_map]
      rfl
    rw [hnames]
    exact List.Nodup.map numbered_injective List.nodup_range'
  · rw [Statement.lex_compile hplain,
      Piece.placeholders_tokens hplain hd (s.tidy_pieces hplain) 1]
    rfl

theorem compile_placeholders_goodsByPrice :
    Dialect.postgres.placeholderStyle = .numbered ∧ Dialect.postgres.IsPlain ∧
      goodsByPrice.placeholders .postgres = [("$1", .int 5), ("$2", .int 1)] ∧
      (lex '"' (goodsByPrice.compile .postgres).sql).filterMap Token.placeholder? = [1, 2] := by
  obtain ⟨-, hplaceholders, -, -, hlex⟩ := goodsByPrice.compile_placeholders .postgres rfl
  exact ⟨rfl, Dialect.isPlain_postgres, hplaceholders, hlex Dialect.isPlain_postgres⟩

end TypedSql
