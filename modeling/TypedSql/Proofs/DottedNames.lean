import Mathlib.Logic.Function.Basic
import TypedSql.Proofs.Respelling

/-!
# Dotted names

The name of a table in a schema and that of a column with its qualifier are two names in quotes with
a dot between them. A quote inside a name is doubled, so that a name ends at the first quote that no
other quote follows (`Dialect.quoteIdentifier_append_inj`). After the first name that is so if the
dot is not itself the quote: `dottedName_injective_iff` says that the dot is the only quote that a
configuration may choose with which different pairs of names are written alike.
-/

namespace TypedSql

namespace Dialect

/-- Two names with a dot between them. -/
def dottedName (d : Dialect) (qualifier name : String) : String :=
  d.quoteIdentifier qualifier ++ "." ++ d.quoteIdentifier name

section Doubling

variable {quote : Char} {rest rest' : List Char}

/-- Before a quote that no other quote follows, a character is not read as the end. -/
theorem doubleQuotes_cons_ne (hrest : rest.head? ≠ some quote) (c : Char) (cs cs' : List Char) :
    doubleQuotes quote (c :: cs) ++ cs' ≠ quote :: rest := by
  intro h
  rw [doubleQuotes] at h
  split at h
  · refine hrest ?_
    rw [← (List.cons.inj h).2]
    rfl
  · rename_i hc
    exact hc (List.cons.inj h).1

/-- Characters with their quotes doubled end at a quote that no other quote follows. -/
theorem doubleQuotes_append_inj {cs cs' : List Char} (hrest : rest.head? ≠ some quote)
    (hrest' : rest'.head? ≠ some quote)
    (h : doubleQuotes quote cs ++ quote :: rest = doubleQuotes quote cs' ++ quote :: rest') :
    cs = cs' ∧ rest = rest' := by
  induction cs generalizing cs' with
  | nil =>
    cases cs' with
    | nil => exact ⟨rfl, (List.cons.inj h).2⟩
    | cons c' cs' => exact absurd h.symm (doubleQuotes_cons_ne hrest c' cs' _)
  | cons c cs ih =>
    cases cs' with
    | nil => exact absurd h (doubleQuotes_cons_ne hrest' c cs _)
    | cons c' cs' =>
      rw [doubleQuotes, doubleQuotes] at h
      -- A doubled quote against another character is told apart by the first of the two.
      split at h <;> split at h
      · rename_i hc hc'
        obtain ⟨rfl, rfl⟩ := ih (List.cons.inj (List.cons.inj h).2).2
        exact ⟨by rw [hc, hc'], rfl⟩
      · rename_i hc'
        exact absurd (List.cons.inj h).1.symm hc'
      · rename_i hc _
        exact absurd (List.cons.inj h).1 hc
      · obtain ⟨rfl, hcs⟩ := List.cons.inj h
        obtain ⟨rfl, rfl⟩ := ih hcs
        exact ⟨rfl, rfl⟩

end Doubling

variable {d : Dialect}

/-- A name in quotes is read off the start of a text that goes on with anything but a quote. -/
theorem quoteIdentifier_append_inj {name name' : String} {rest rest' : List Char}
    (hrest : rest.head? ≠ some d.identifierQuote) (hrest' : rest'.head? ≠ some d.identifierQuote)
    (h : (d.quoteIdentifier name).toList ++ rest = (d.quoteIdentifier name').toList ++ rest') :
    name = name' ∧ rest = rest' := by
  simp only [quoteIdentifier, String.toList_ofList, List.cons_append, List.append_assoc,
    List.nil_append, List.cons.injEq, true_and] at h
  obtain ⟨hname, hrest⟩ := doubleQuotes_append_inj hrest hrest' h
  exact ⟨String.toList_inj.1 hname, hrest⟩

theorem quoteIdentifier_injective : Function.Injective d.quoteIdentifier := by
  intro name name' h
  have h' : (d.quoteIdentifier name).toList ++ [] = (d.quoteIdentifier name').toList ++ [] := by
    rw [h]
  exact (quoteIdentifier_append_inj (by simp) (by simp) h').1

theorem head?_dot_ne (hd : d.identifierQuote ≠ '.') (cs : List Char) :
    ('.' :: cs).head? ≠ some d.identifierQuote :=
  fun hhead => hd (Option.some.inj hhead).symm

theorem toList_dottedName (qualifier name : String) :
    (d.dottedName qualifier name).toList =
      (d.quoteIdentifier qualifier).toList ++ '.' :: (d.quoteIdentifier name).toList := by
  simp [dottedName]

/-- Where the dot is not the quote, two names are read off their text. -/
theorem dottedName_injective (hd : d.identifierQuote ≠ '.') : Function.Injective2 d.dottedName := by
  intro qualifier qualifier' name name' h
  rw [← String.toList_inj, toList_dottedName, toList_dottedName] at h
  obtain ⟨hqualifier, hrest⟩ :=
    quoteIdentifier_append_inj (head?_dot_ne hd _) (head?_dot_ne hd _) h
  exact ⟨hqualifier, quoteIdentifier_injective (String.toList_inj.1 (List.cons.inj hrest).2)⟩

/-- A name alone is not written like two names. -/
theorem dottedName_ne_quoteIdentifier (hd : d.identifierQuote ≠ '.')
    (qualifier name name' : String) : d.dottedName qualifier name ≠ d.quoteIdentifier name' := by
  intro h
  rw [← String.toList_inj, toList_dottedName,
    ← List.append_nil (d.quoteIdentifier name').toList] at h
  obtain ⟨-, hrest⟩ := quoteIdentifier_append_inj (head?_dot_ne hd _) (by simp) h
  cases hrest

/-- Where the dot is the quote, a dot at the end of the first name is not told from one at the start
of the second. -/
theorem dottedName_of_dot (hd : d.identifierQuote = '.') :
    d.dottedName "a" ".b" = d.dottedName "a." "b" := by
  simp only [dottedName, quoteIdentifier, hd]
  decide

end Dialect

/-! ### Names of tables and columns -/

section Names

variable {d : Dialect}

theorem Table.sql_namePieces_of_some {t : Table} {schema : String}
    (h : t.ref.schema? = some schema) :
    Piece.sql d t.namePieces = d.dottedName schema t.ref.name := by
  simp [namePieces, h, Piece.sql, Piece.texts, Dialect.dottedName, String.join]

theorem Table.sql_namePieces_of_none {t : Table} (h : t.ref.schema? = none) :
    Piece.sql d t.namePieces = d.quoteIdentifier t.ref.name := by
  simp [namePieces, h, Piece.sql, Piece.texts, String.join]

theorem Column.sql_pieces_qualified (c : Column) :
    Piece.sql d (c.pieces true) = d.dottedName c.qualifier c.name := by
  simp [Column.pieces, Piece.sql, Piece.texts, Dialect.dottedName, String.join]

/-- Tables that are written alike have the same name in the same schema. -/
theorem Table.eq_of_sql_namePieces (hd : d.identifierQuote ≠ '.') {t t' : Table}
    (h : Piece.sql d t.namePieces = Piece.sql d t'.namePieces) :
    t.ref.schema? = t'.ref.schema? ∧ t.ref.name = t'.ref.name := by
  cases hschema : t.ref.schema? with
  | none =>
    rw [sql_namePieces_of_none hschema] at h
    cases hschema' : t'.ref.schema? with
    | none =>
      rw [sql_namePieces_of_none hschema'] at h
      exact ⟨rfl, Dialect.quoteIdentifier_injective h⟩
    | some schema' =>
      rw [sql_namePieces_of_some hschema'] at h
      exact (Dialect.dottedName_ne_quoteIdentifier hd _ _ _ h.symm).elim
  | some schema =>
    rw [sql_namePieces_of_some hschema] at h
    cases hschema' : t'.ref.schema? with
    | none =>
      rw [sql_namePieces_of_none hschema'] at h
      exact (Dialect.dottedName_ne_quoteIdentifier hd _ _ _ h).elim
    | some schema' =>
      rw [sql_namePieces_of_some hschema'] at h
      obtain ⟨rfl, hname⟩ := Dialect.dottedName_injective hd h
      exact ⟨rfl, hname⟩

end Names

/-! ### Configured quotes -/

/-- A configured dialect quotes with the dot only if its configuration says so. -/
theorem DialectConfig.identifierQuote_dialect_eq_dot_iff (config : DialectConfig) :
    config.dialect.identifierQuote = '.' ↔ config.identifierQuote? = some '.' := by
  have hbase : config.kind.dialect.identifierQuote ≠ '.' := by
    cases config.kind <;> decide
  have hquote : config.dialect.identifierQuote =
      config.identifierQuote?.getD config.kind.dialect.identifierQuote := rfl
  rw [hquote]
  cases config.identifierQuote? with
  | none => simp [hbase]
  | some quote => simp

/--
**The dot is the only accepted quote that does not delimit names.** For every configuration that is
accepted, the texts of two names with a dot between them determine the names exactly if the quote is
not configured to be the dot. Then tables are written alike only if they have the same name in the
same schema, or outside of any, and qualified columns only if they have the same qualifier and the
same name.
-/
theorem dottedName_injective_iff {config : DialectConfig} {d : Dialect}
    (hd : config.toDialect = .ok d) :
    (Function.Injective2 d.dottedName ↔ config.identifierQuote? ≠ some '.') ∧
      (config.identifierQuote? ≠ some '.' →
        (∀ t t' : Table, Piece.sql d t.namePieces = Piece.sql d t'.namePieces →
          t.ref.schema? = t'.ref.schema? ∧ t.ref.name = t'.ref.name) ∧
        ∀ c c' : Column, Piece.sql d (c.pieces true) = Piece.sql d (c'.pieces true) →
          c.qualifier = c'.qualifier ∧ c.name = c'.name) := by
  obtain rfl := DialectConfig.dialect_of_toDialect hd
  rw [ne_eq, ← config.identifierQuote_dialect_eq_dot_iff]
  refine ⟨⟨fun hinjective hdot => ?_, Dialect.dottedName_injective⟩, fun hquote =>
    ⟨fun t t' => Table.eq_of_sql_namePieces hquote, fun c c' h => ?_⟩⟩
  · have hnames := (hinjective (Dialect.dottedName_of_dot hdot)).1
    revert hnames
    decide
  · rw [Column.sql_pieces_qualified, Column.sql_pieces_qualified] at h
    exact Dialect.dottedName_injective hquote h

theorem dottedName_injective_standardMysql :
    standardMysql.toDialect = .ok standardMysql.dialect ∧
      Function.Injective2 standardMysql.dialect.dottedName := by
  have haccepted : standardMysql.toDialect = .ok standardMysql.dialect := rfl
  exact ⟨haccepted, (dottedName_injective_iff haccepted).1.2 (by decide)⟩

/-- The engine-neutral dialect with dots for quotes. -/
def dotQuoted : DialectConfig :=
  ⟨.generic, none, some '.'⟩

/-- A configuration with the dot as its quote is accepted, and two tables in different schemas are
selected from by one text. -/
theorem not_injective_dotQuoted :
    dotQuoted.toDialect = .ok dotQuoted.dialect ∧
      dotQuoted.dialect.quoteIdentifier "a" ++ "." ++ dotQuoted.dialect.quoteIdentifier ".b" =
        dotQuoted.dialect.quoteIdentifier "a." ++ "." ++ dotQuoted.dialect.quoteIdentifier "b" ∧
      (Statement.select (.ofTable (priced ⟨some "a", ".b", none⟩))).compile dotQuoted.dialect =
        (Statement.select (.ofTable (priced ⟨some "a.", "b", none⟩))).compile dotQuoted.dialect ∧
      ("a", ".b") ≠ ("a.", "b") := by
  refine ⟨rfl, ?_, ?_, ?_⟩ <;> decide

end TypedSql
