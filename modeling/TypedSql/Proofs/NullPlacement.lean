import TypedSql.Proofs.Literals
import TypedSql.Proofs.Wording

/-!
# The placement of NULL in a sort

A dialect that has no words for the placement of NULL is sent two sort keys for one: a test for NULL
and the expression itself. `readOrder` reads the sort keys off the text of an `ORDER BY` clause, and
`Dialect.SendsOrder` says which ones a dialect is sent. `Interpretation.rowOrder` compares two rows
by them, key after key, where each key comes with the end at which the engine sorts NULL if the key
does not say so.

`rowOrder_sentKeys` compares rows by what a dialect without placements is sent, and by what one with
placements is sent, in clauses of any length.
-/

namespace TypedSql

/-! ### Reading sort keys -/

/-- The sort keys that a whole text is read as, with its parameters in place of placeholders. -/
def readOrder (sql : String) (parameters : List Value) : Option (List SqlSortKey) := do
  let ts ← (lex '"' sql).mapM (Token.bind parameters)
  let keys := Reader.separated (.mark ',') (Reader.sortKey (Reader.readers ts.length))
  match Reader.optionally (Reader.after [.word "ORDER", .word "BY"] keys) ts with
  | some (keys?, []) => some (keys?.getD [])
  | _ => none

section Reading

open Reader
open Piece (phrase Tidy)

variable {qualify : Bool}

/-- The keys of a clause are read by readers of any depth that its tokens do not exceed. -/
theorem readsAs_sortKeys {ks : List SortKey} (hne : ks ≠ []) {n : Nat}
    (hlength : (phrase (Piece.commaSeparated
      (ks.map (SortKey.pieces .postgres qualify)))).length ≤ n) :
    ReadsAs (separated (.mark ',') (sortKey (readers n))) 1
      (phrase (Piece.commaSeparated (ks.map (SortKey.pieces .postgres qualify))))
      (ks.map (SortKey.reading qualify)) := by
  refine readsAs_commaSeparated hne fun k hk => SortKey.readsAs_sortKey ?_
  have hexpr : (phrase (k.expr.pieces .postgres qualify)).length ≤
      (phrase (k.pieces .postgres qualify)).length := by
    rw [SortKey.phrase_pieces, List.length_append]
    omega
  have hkey := length_phrase_le_separated ", " (SortKey.pieces .postgres qualify) hk
  rw [← Piece.commaSeparated] at hkey
  exact k.expr.reads.deeper qualify n (by omega)

/-- The sort keys are read back from the text of their clause for PostgreSQL. -/
theorem readOrder_sql (ks : List SortKey) (qualify : Bool) :
    readOrder (Piece.sql .postgres (orderPieces (ks.map (SortKey.pieces .postgres qualify))))
        (Piece.parameters (orderPieces (ks.map (SortKey.pieces .postgres qualify)))) =
      some (ks.map (SortKey.reading qualify)) := by
  have htidy : Tidy .blank (orderPieces (ks.map (SortKey.pieces .postgres qualify))) :=
    tidy_orderPieces
      (List.forall_mem_map.2 fun k _ => tidy_sortKeyPieces
        (k.expr.tidy_pieces Dialect.isPlain_postgres qualify)) .blank
  have hlex := Piece.lex_sql Dialect.isPlain_postgres htidy
  have hbind := Piece.mapM_bind_tokens Dialect.isPlain_postgres rfl rfl htidy []
  have hquote : Dialect.postgres.identifierQuote = '"' := rfl
  rw [hquote] at hlex
  simp only [List.length_nil, Nat.zero_add, List.nil_append] at hbind
  rw [readOrder, hlex, hbind, phrase_orderBy]
  cases ks with
  | nil => rfl
  | cons k ks =>
    let items := phrase (Piece.commaSeparated ((k :: ks).map (SortKey.pieces .postgres qualify)))
    have htokens : clauseTokens [.word "ORDER", .word "BY"] (some items) =
        .word "ORDER" :: .word "BY" :: items := rfl
    have hread : separated (.mark ',') (sortKey (readers (items.length + 1 + 1))) items =
        some ((k :: ks).map (SortKey.reading qualify), []) := by
      have h := readsAs_sortKeys (List.cons_ne_nil k ks) (Nat.le_add_right items.length 2) []
        (by simp [Stops])
      rwa [List.append_nil] at h
    rw [entries?_of_mem (List.mem_cons_self ..), Option.map_some, htokens]
    simp [optionally, after, expect, hread]

end Reading

/-! ### What a dialect is sent for a clause -/

/-- The sort keys that a dialect is sent for one. -/
def SortKey.sentKeys (d : Dialect) (qualify : Bool) (k : SortKey) : List SqlSortKey :=
  (k.emulatedWithin d).map (SortKey.reading qualify)

/-- The text of an `ORDER BY` clause for a dialect is how the dialect words a text that is read as
given sort keys. -/
def Dialect.SendsOrder (d : Dialect) (ks : List SortKey) (qualify : Bool) (keys : List SqlSortKey) :
    Prop :=
  ∃ layout, d.Spells (orderPieces (ks.map (SortKey.pieces d qualify))) layout ∧
    readOrder (Piece.sql .postgres layout) (Piece.parameters layout) = some keys

theorem sendsOrder_sentKeys (d : Dialect) (ks : List SortKey) (qualify : Bool) :
    d.SendsOrder ks qualify (ks.flatMap (SortKey.sentKeys d qualify)) := by
  refine ⟨_, Select.spells_order (fun k _ => k.expr.isWorded d) qualify, ?_⟩
  rw [readOrder_sql, List.map_flatMap]
  rfl

section Keys

variable {d : Dialect} {qualify : Bool} {k : SortKey} {nulls : NullPlacement}

theorem SortKey.sentKeys_plain (hnulls : k.nulls? = none) :
    k.sentKeys d qualify = [⟨k.expr.sent d qualify, k.direction, none⟩] := by
  obtain ⟨e, direction, nulls?⟩ := k
  cases hnulls
  rfl

theorem SortKey.sentKeys_emulated (hd : d.supportsNullPlacement = false)
    (hnulls : k.nulls? = some nulls) :
    k.sentKeys d qualify =
      [⟨.nullTest (k.expr.sent d qualify) false, nulls.testDirection, none⟩,
        ⟨k.expr.sent d qualify, k.direction, none⟩] := by
  obtain ⟨e, direction, nulls?⟩ := k
  cases hnulls
  simp [sentKeys, emulatedWithin, emulated, hd, reading, Expr.reading, Expr.sent]

theorem SortKey.sentKeys_native (hd : d.supportsNullPlacement = true)
    (hnulls : k.nulls? = some nulls) :
    k.sentKeys d qualify = [⟨k.expr.sent d qualify, k.direction, some nulls⟩] := by
  obtain ⟨e, direction, nulls?⟩ := k
  cases hnulls
  simp [sentKeys, emulatedWithin, emulated, hd, reading, Expr.sent]

/-- Both copies of an expression bind the same values. -/
theorem SortKey.parameters_emulated (hd : d.supportsNullPlacement = false)
    (hnulls : k.nulls? = some nulls) :
    Piece.parameters (k.pieces d qualify) =
      Piece.parameters (k.expr.pieces d qualify) ++ Piece.parameters (k.expr.pieces d qualify) := by
  rw [SortKey.parameters_pieces, hnulls]
  simp [Piece.keyView, Dialect.bindingRule, hd]

end Keys

/-! ### Comparing rows -/

namespace Interpretation

variable {ρ : Type} (I : Interpretation ρ)

/-- The order of two rows by a sort key, where NULL goes to a given end if the key does not say to
which. -/
def keyOrder (key : SqlSortKey) (plain : NullPlacement) (x y : ρ) : Ordering :=
  I.sortOrder key.direction (some (key.nulls?.getD plain)) (key.expr.eval I x) (key.expr.eval I y)

/-- The order of two rows by sort keys: a key decides where those before it do not. -/
def rowOrder : List (SqlSortKey × NullPlacement) → ρ → ρ → Ordering
  | [], _, _ => .eq
  | (key, plain) :: keys, x, y => (I.keyOrder key plain x y).then (rowOrder keys x y)

theorem rowOrder_append (keys keys' : List (SqlSortKey × NullPlacement)) (x y : ρ) :
    I.rowOrder (keys ++ keys') x y = (I.rowOrder keys x y).then (I.rowOrder keys' x y) := by
  induction keys with
  | nil => rfl
  | cons key keys ih => rw [List.cons_append, rowOrder, ih, ← Ordering.then_assoc, rowOrder]

end Interpretation

/-- An entry of an `ORDER BY` clause, for two engines: the ends to which they sort NULL by the keys
of the entry that do not say so. Where the entry does not say so either, that is one end. -/
structure SortEntry where
  key : SortKey
  emulating : NullPlacement
  placing : NullPlacement
  agree : key.nulls? = none → emulating = placing

namespace SortEntry

variable {ρ : Type} (I : Interpretation ρ)

/-- The keys of an entry for a dialect without words for the placement of NULL. -/
def emulatingKeys (d : Dialect) (qualify : Bool) (entry : SortEntry) :
    List (SqlSortKey × NullPlacement) :=
  (entry.key.sentKeys d qualify).map (·, entry.emulating)

/-- The keys of an entry for a dialect with such words. -/
def placingKeys (n : Dialect) (qualify : Bool) (entry : SortEntry) :
    List (SqlSortKey × NullPlacement) :=
  (entry.key.sentKeys n qualify).map (·, entry.placing)

/-- The keys of one entry compare rows alike. -/
theorem rowOrder_keys {d n : Dialect} (hd : d.supportsNullPlacement = false)
    (hn : n.supportsNullPlacement = true) (qualify : Bool) (entry : SortEntry) (x y : ρ) :
    I.rowOrder (entry.emulatingKeys d qualify) x y =
      I.rowOrder (entry.placingKeys n qualify) x y := by
  have hvalue : (entry.key.expr.sent d qualify).eval I = (entry.key.expr.sent n qualify).eval I :=
    (entry.key.expr.isMeant I d qualify).trans (entry.key.expr.isMeant I n qualify).symm
  rw [emulatingKeys, placingKeys]
  cases hnulls : entry.key.nulls? with
  | none =>
    rw [SortKey.sentKeys_plain hnulls, SortKey.sentKeys_plain hnulls, entry.agree hnulls]
    simp only [List.map_cons, List.map_nil, Interpretation.rowOrder, Interpretation.keyOrder,
      hvalue]
  | some nulls =>
    rw [SortKey.sentKeys_emulated hd hnulls, SortKey.sentKeys_native hn hnulls]
    simp only [List.map_cons, List.map_nil, Interpretation.rowOrder, Interpretation.keyOrder,
      SqlExpr.eval, hvalue, Bool.bne_false, Option.getD_none, Option.getD_some]
    rw [← Ordering.then_assoc, I.sortOrder_placed]

/-- Entry after entry, the keys of a whole clause compare rows alike. -/
theorem rowOrder_flatMap_keys {d n : Dialect} (hd : d.supportsNullPlacement = false)
    (hn : n.supportsNullPlacement = true) (qualify : Bool) (entries : List SortEntry) (x y : ρ) :
    I.rowOrder (entries.flatMap (emulatingKeys d qualify)) x y =
      I.rowOrder (entries.flatMap (placingKeys n qualify)) x y := by
  induction entries with
  | nil => rfl
  | cons entry entries ih =>
    rw [List.flatMap_cons, List.flatMap_cons, I.rowOrder_append, I.rowOrder_append,
      rowOrder_keys I hd hn, ih]

end SortEntry

/--
**The emulated placement of NULL sorts like the native one.** Of every `ORDER BY` clause a dialect
`d` without placements and a dialect `n` with them are sent the keys `SortKey.sentKeys`. For an entry
with a placement these are, for `d`, the test for NULL in the direction that puts NULL first or last
and then the same expression in its own direction, which bind the same values twice; for `n` they
are the one key with its placement. Any two rows compare alike by the keys that the two are sent,
key after key, to whichever end the engines sort NULL by the plain keys of entries with a placement.
-/
theorem rowOrder_sentKeys {d n : Dialect} (hd : d.supportsNullPlacement = false)
    (hn : n.supportsNullPlacement = true) (entries : List SortEntry) (qualify : Bool) :
    d.SendsOrder (entries.map SortEntry.key) qualify
        (entries.flatMap fun entry => entry.key.sentKeys d qualify) ∧
      n.SendsOrder (entries.map SortEntry.key) qualify
        (entries.flatMap fun entry => entry.key.sentKeys n qualify) ∧
      (∀ entry ∈ entries, ∀ nulls, entry.key.nulls? = some nulls →
        entry.key.sentKeys d qualify =
            [⟨.nullTest (entry.key.expr.sent d qualify) false, nulls.testDirection, none⟩,
              ⟨entry.key.expr.sent d qualify, entry.key.direction, none⟩] ∧
          entry.key.sentKeys n qualify =
            [⟨entry.key.expr.sent n qualify, entry.key.direction, some nulls⟩] ∧
          Piece.parameters (entry.key.pieces d qualify) =
            Piece.parameters (entry.key.expr.pieces d qualify) ++
              Piece.parameters (entry.key.expr.pieces d qualify)) ∧
      ∀ {ρ : Type} (I : Interpretation ρ) (x y : ρ),
        I.rowOrder (entries.flatMap (SortEntry.emulatingKeys d qualify)) x y =
          I.rowOrder (entries.flatMap (SortEntry.placingKeys n qualify)) x y := by
  have hsends : ∀ d : Dialect, d.SendsOrder (entries.map SortEntry.key) qualify
      (entries.flatMap fun entry => entry.key.sentKeys d qualify) := by
    intro d
    have h := sendsOrder_sentKeys d (entries.map SortEntry.key) qualify
    rwa [List.flatMap_map] at h
  refine ⟨hsends d, hsends n, fun entry _ nulls hnulls => ?_,
    fun I x y => SortEntry.rowOrder_flatMap_keys I hd hn qualify entries x y⟩
  exact ⟨SortKey.sentKeys_emulated hd hnulls, SortKey.sentKeys_native hn hnulls,
    SortKey.parameters_emulated hd hnulls⟩

/-- Goods by their prices and those without one last, for engines of which the first sorts NULL
first. -/
def pricesWithNullLast : SortEntry where
  key := ⟨.column price, .ascending, some .last⟩
  emulating := .first
  placing := .last
  agree := by rintro ⟨⟩

theorem rowOrder_sentKeys_pricesWithNullLast :
    Dialect.mysql.supportsNullPlacement = false ∧ Dialect.postgres.supportsNullPlacement = true ∧
      Dialect.mysql.SendsOrder [pricesWithNullLast.key] false
        [⟨.nullTest (.column none "price") false, .ascending, none⟩,
          ⟨.column none "price", .ascending, none⟩] ∧
      Dialect.postgres.SendsOrder [pricesWithNullLast.key] false
        [⟨.column none "price", .ascending, some .last⟩] ∧
      ∀ {ρ : Type} (I : Interpretation ρ) (x y : ρ),
        I.rowOrder
            [(⟨.nullTest (.column none "price") false, .ascending, none⟩, .first),
              (⟨.column none "price", .ascending, none⟩, .first)] x y =
          I.rowOrder [(⟨.column none "price", .ascending, some .last⟩, .last)] x y := by
  have h := rowOrder_sentKeys (d := .mysql) (n := .postgres) rfl rfl [pricesWithNullLast] false
  exact ⟨rfl, rfl, h.1, h.2.1, fun I x y => h.2.2.2 I x y⟩

end TypedSql
