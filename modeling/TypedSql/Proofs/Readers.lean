import TypedSql.Proofs.Grammar

/-!
# Laws of the readers

A reader of some level reads tokens as a value whatever follows, as long as no token follows at once
that binds as tightly as the level: `ReadsAs p level ts a`. Each layer of the grammar has two laws,
one for what it adds and one for what the layer inside it reads.

* Level 8: what is primary or unary;
* 7 and 6: products and sums;
* 5: comparisons and negated conditions;
* 4 and 3: chains with `AND` and with `OR`;
* 2: what may have an alias, 1: lists.
-/

namespace TypedSql

/-- How tightly a token ties what follows it to what is before it. -/
def Token.binding : Token Value → Nat
  | .mark c => if c = '.' then 8 else if c = ',' then 1 else 0
  | .operator s => if s ∈ ["*", "/"] then 7 else if s ∈ ["+", "-"] then 6 else 5
  | .word w =>
    if w ∈ ["IS", "NOT", "LIKE", "ILIKE", "IN", "BETWEEN"] then 5
    else if w = "AND" then 4
    else if w = "OR" then 3
    else if w ∈ ["AS", "NULLS"] then 2
    else 0
  | _ => 0

/-- The place of the clause that a token opens; a closing parenthesis is after all clauses. -/
def Token.clauseRank : Token Value → Nat
  | .word w =>
    if w ∈ ["INNER", "LEFT", "RIGHT", "FULL", "CROSS"] then 1
    else if w = "WHERE" then 2
    else if w = "GROUP" then 3
    else if w = "HAVING" then 4
    else if w = "ORDER" then 5
    else if w = "LIMIT" then 6
    else if w = "OFFSET" then 7
    else 0
  | .mark c => if c = ')' then 8 else 0
  | _ => 0

namespace Reader

variable {α β ι : Type} {p : Reader α} {level : Nat} {ts us rest : List (Token Value)}
  {t : Token Value} {a b : α}

/-! ### Keywords -/

@[simp] theorem expect_append (keyword ts : List (Token Value)) :
    expect keyword (keyword ++ ts) = some ts := by
  induction keyword with
  | nil => rfl
  | cons k keyword ih => simp [expect, ih]

theorem expect_eq_some {keyword : List (Token Value)} (h : expect keyword ts = some rest) :
    ts = keyword ++ rest := by
  induction keyword generalizing ts with
  | nil => simpa [expect] using h
  | cons k keyword ih =>
    cases ts with
    | nil => cases h
    | cons t ts =>
      simp only [expect] at h
      split at h
      · rename_i hk
        rw [hk, ih h, List.cons_append]
      · cases h

/-- A keyword is not there if its first token is not. -/
theorem expect_eq_none (h : ∀ us, ts ≠ t :: us) (keyword : List (Token Value)) :
    expect (t :: keyword) ts = none :=
  Option.eq_none_iff_forall_ne_some.2 fun _ hus => h _ (expect_eq_some hus)

theorem choice_eq_none {keyword : ι → List (Token Value)} {choices : List ι}
    (h : ∀ i ∈ choices, expect (keyword i) ts = none) : choice keyword choices ts = none := by
  simpa [choice] using h

/-- The choice whose keyword is written is taken, if it alone starts with its first token. -/
theorem choice_eq_some {keyword : ι → List (Token Value)} {choices : List ι} {i : ι}
    (hi : i ∈ choices) (honly : ∀ j ∈ choices, (keyword j).head? = (keyword i).head? → j = i)
    (hne : ∀ j ∈ choices, keyword j ≠ []) (ts : List (Token Value)) :
    choice keyword choices (keyword i ++ ts) = some (i, ts) := by
  induction choices with
  | nil => cases hi
  | cons j choices ih =>
    by_cases hj : j = i
    · subst hj
      simp [choice]
    -- Two keywords differ in their first token, so another one fails at once.
    · have hnone : expect (keyword j) (keyword i ++ ts) = none := by
        obtain ⟨k, ks, hk⟩ := List.exists_cons_of_ne_nil (hne j List.mem_cons_self)
        obtain ⟨l, ls, hl⟩ := List.exists_cons_of_ne_nil (hne i hi)
        have hkl : l ≠ k := by
          rintro rfl
          exact hj (honly j List.mem_cons_self (by rw [hk, hl]; rfl))
        rw [hk, hl, List.cons_append, expect, if_neg hkl]
      have hrest := ih ((List.mem_cons.1 hi).resolve_left (Ne.symm hj))
        (fun j hj => honly j (List.mem_cons_of_mem _ hj))
        (fun j hj => hne j (List.mem_cons_of_mem _ hj))
      simpa [choice, hnone] using hrest

/-! ### What follows -/

/-- No token at the front binds as tightly as a level. -/
def Stops (level : Nat) (ts : List (Token Value)) : Prop :=
  ∀ t ∈ ts.head?, t.binding < level

theorem stops_cons : Stops level (t :: ts) ↔ t.binding < level := by
  simp [Stops]

theorem Stops.mono {level' : Nat} (h : Stops level ts) (hle : level ≤ level') :
    Stops level' ts :=
  fun t ht => Nat.lt_of_lt_of_le (h t ht) hle

/-- A keyword that binds as tightly as a level is not there. -/
theorem Stops.expect_eq_none (h : Stops level ts) (ht : level ≤ t.binding)
    (keyword : List (Token Value)) : expect (t :: keyword) ts = none := by
  cases ts with
  | nil => rfl
  | cons u us =>
    have hne : u ≠ t := by
      rintro rfl
      exact absurd (stops_cons.1 h) (by omega)
    rw [expect, if_neg hne]

/-- Some tokens are read as a value, whatever follows that binds less tightly than a level. -/
def ReadsAs (p : Reader α) (level : Nat) (ts : List (Token Value)) (a : α) : Prop :=
  ∀ rest, Stops level rest → p (ts ++ rest) = some (a, rest)

theorem ReadsAs.mono {level' : Nat} (h : ReadsAs p level' ts a) (hle : level ≤ level') :
    ReadsAs p level ts a :=
  fun rest hrest => h rest (hrest.mono hle)

theorem ReadsAs.map (h : ReadsAs p level ts a) (f : α → β) :
    ReadsAs (p.map f) level ts (f a) := by
  intro rest hrest
  simp [Reader.map, h rest hrest]

/-- Some tokens before a closing parenthesis are read as a value. -/
def ReadsWithin (p : Reader α) (ts : List (Token Value)) (a : α) : Prop :=
  ∀ rest, p (ts ++ .mark ')' :: rest) = some (a, .mark ')' :: rest)

theorem ReadsAs.within (h : ReadsAs p level ts a) (hlevel : 0 < level) : ReadsWithin p ts a :=
  fun _ => h _ (stops_cons.2 hlevel)

theorem ReadsWithin.enclosed (h : ReadsWithin p ts a) (rest : List (Token Value)) :
    enclosed p (.mark '(' :: (ts ++ .mark ')' :: rest)) = some (a, rest) := by
  simp [Reader.enclosed, after, expect, h rest]

/-! ### Lists -/

/-- Something is read as often as it is there, if each time what follows is as it has to be. -/
theorem many_append (OK : List (Token Value) → Prop) {items : List ι}
    {f : ι → List (Token Value)} {g : ι → α}
    (hread : ∀ i ∈ items, ∀ rest, OK rest → p (f i ++ rest) = some (g i, rest))
    (hitems : ∀ i ∈ items, ∀ rest, OK (f i ++ rest)) (hrest : OK rest) (hstop : p rest = none)
    {n : Nat} (hn : items.length ≤ n) :
    many p n (items.flatMap f ++ rest) = some (items.map g, rest) := by
  induction items generalizing n with
  | nil => cases n <;> simp [many, hstop]
  | cons i items ih =>
    obtain ⟨m, rfl⟩ : ∃ m, n = m + 1 := ⟨n - 1, by simp at hn; omega⟩
    obtain ⟨hi, hread⟩ := List.forall_mem_cons.1 hread
    obtain ⟨-, hitems⟩ := List.forall_mem_cons.1 hitems
    have hfollow : OK (items.flatMap f ++ rest) := by
      cases items with
      | nil => exact hrest
      | cons j items => simpa using hitems j List.mem_cons_self _
    have hmany := ih hread hitems (Nat.le_of_succ_le_succ hn)
    simp [many, hi _ hfollow, hmany]

theorem length_le_length_flatMap {items : List ι} {f : ι → List (Token Value)}
    (h : ∀ i ∈ items, f i ≠ []) : items.length ≤ (items.flatMap f).length := by
  induction items with
  | nil => simp
  | cons i items ih =>
    obtain ⟨hi, h⟩ := List.forall_mem_cons.1 h
    have hpos := List.length_pos_iff.2 hi
    have hrest := ih h
    simp only [List.flatMap_cons, List.length_append, List.length_cons]
    omega

/-- A list is read whose separator binds less tightly than its items. -/
theorem ReadsAs.separated {i : ι} {items : List ι} {f : ι → List (Token Value)} {g : ι → α}
    (h : ∀ j ∈ i :: items, ReadsAs p (t.binding + 1) (f j) (g j)) :
    ReadsAs (separated t p) t.binding (f i ++ items.flatMap fun j => t :: f j)
      ((i :: items).map g) := by
  intro rest hrest
  obtain ⟨hi, h⟩ := List.forall_mem_cons.1 h
  -- An item is followed by a separator or by what follows the list.
  have hfollow : Stops (t.binding + 1) ((items.flatMap fun j => t :: f j) ++ rest) := by
    cases items with
    | nil => exact hrest.mono (by omega)
    | cons j items => exact stops_cons.2 (by omega)
  have hcount : items.length ≤ ((items.flatMap fun j => t :: f j) ++ rest).length := by
    rw [List.length_append]
    exact Nat.le_add_right_of_le (length_le_length_flatMap (by simp))
  have hmany := many_append (Stops (t.binding + 1))
    (fun j hj us hus => show after [t] p (t :: f j ++ us) = some (g j, us) by
      simp [after, expect, h j hj us hus])
    (fun j _ us => stops_cons.2 (Nat.lt_succ_self _)) (hrest.mono (Nat.le_succ _))
    (by simp [after, hrest.expect_eq_none (Nat.le_refl _)]) hcount
  rw [List.append_assoc, Reader.separated, hi _ hfollow]
  simp only [Option.bind_eq_bind, Option.bind_some, hmany]
  rfl

/-! ### Clauses -/

/-- Tokens that go on with a clause after some place, or with a closing parenthesis. -/
def Later (place : Nat) (ts : List (Token Value)) : Prop :=
  ∃ t us, ts = t :: us ∧ place < t.clauseRank

variable {place : Nat}

theorem Later.mono {place' : Nat} (h : Later place' ts) (hle : place ≤ place') :
    Later place ts := by
  obtain ⟨t, us, hts, ht⟩ := h
  exact ⟨t, us, hts, Nat.lt_of_le_of_lt hle ht⟩

theorem Later.expect_eq_none (h : Later place ts) (ht : t.clauseRank ≤ place)
    (keyword : List (Token Value)) : expect (t :: keyword) ts = none := by
  obtain ⟨u, us, rfl, hu⟩ := h
  refine Reader.expect_eq_none ?_ keyword
  rintro vs hvs
  obtain ⟨rfl, -⟩ := List.cons.inj hvs
  omega

theorem binding_eq_zero_of_clauseRank (h : 0 < t.clauseRank) : t.binding = 0 := by
  have hwords : ∀ w ∈ ["INNER", "LEFT", "RIGHT", "FULL", "CROSS", "WHERE", "GROUP", "HAVING",
      "ORDER", "LIMIT", "OFFSET"], (Token.word w).binding = 0 := by
    decide
  cases t with
  | word w =>
    refine hwords w (Decidable.byContradiction fun hw => ?_)
    simp only [List.mem_cons, List.not_mem_nil, or_false, not_or] at hw
    simp [Token.clauseRank, hw] at h
  | mark c =>
    have hc : c = ')' := by
      refine Decidable.byContradiction fun hc => ?_
      simp [Token.clauseRank, hc] at h
    subst hc
    decide
  | operator s => cases h
  | identifier name => rfl
  | quotedText s => rfl
  | placeholder v => rfl
  | unfinished => rfl

theorem Later.stops (h : Later place ts) (hlevel : 0 < level) : Stops level ts := by
  obtain ⟨t, us, rfl, ht⟩ := h
  rw [stops_cons, binding_eq_zero_of_clauseRank (Nat.zero_lt_of_lt ht)]
  exact hlevel

/-- The tokens of a clause that may be missing. -/
def clauseTokens (keyword : List (Token Value)) (ts? : Option (List (Token Value))) :
    List (Token Value) :=
  match ts? with
  | some ts => keyword ++ ts
  | none => []

/-- A clause is read, and before it may be a clause of any earlier place. -/
theorem Later.clause (t : Token Value) (keyword : List (Token Value)) (x? : Option ι)
    {f : ι → List (Token Value)} {g : ι → α} (h : Later t.clauseRank rest)
    (hread : ∀ x ∈ x?, ReadsAs p 1 (f x) (g x)) :
    ∃ ts, clauseTokens (t :: keyword) (x?.map f) ++ rest = ts ∧
      optionally (after (t :: keyword) p) ts = some (x?.map g, rest) ∧
      ∀ place < t.clauseRank, Later place ts := by
  refine ⟨_, rfl, ?_, ?_⟩
  · cases x? with
    | none =>
      have hnone := h.expect_eq_none (Nat.le_refl _) keyword
      simp [clauseTokens, optionally, after, hnone]
    | some x =>
      have hexpect := expect_append (t :: keyword) (f x ++ rest)
      rw [List.cons_append] at hexpect
      simp [clauseTokens, optionally, after, hexpect, hread x rfl rest (h.stops (by decide))]
  · intro place hplace
    cases x? with
    | none => exact h.mono (Nat.le_of_lt hplace)
    | some x => exact ⟨t, _, rfl, hplace⟩

theorem readsAs_number (n : Nat) : ReadsAs number level [.word (toString n)] n := by
  intro rest hrest
  have htoList : (toString n).toList = Nat.toDigits 10 n := by simp
  have hdigits : (Nat.toDigits 10 n).all Char.isDigit = true :=
    List.all_eq_true.2 fun c hc => Nat.isDigit_of_mem_toDigits (by omega) (by omega) hc
  rw [List.singleton_append, number, htoList, if_pos hdigits,
    Nat.ofDigitChars_toDigits (by decide) (by decide)]

/-! ### Layers -/

variable {d : Deeper} {e : SqlExpr}

theorem unary_of_primary {r : SqlExpr × List (Token Value)} (h : primary d ts = some r) :
    unary d ts = some r := by
  unfold unary
  split
  -- Nothing primary starts with a minus sign.
  · rename_i us hus
    rw [expect_eq_some hus] at h
    cases h
  · exact h

theorem ReadsAs.unary (h : ReadsAs (primary d) 8 ts e) : ReadsAs (Reader.unary d) 8 ts e :=
  fun rest hrest => unary_of_primary (h rest hrest)

theorem ReadsAs.negation (h : ReadsAs d.unary 8 ts e) :
    ReadsAs (Reader.unary d) 8 (.operator "-" :: ts) (.negation e) := by
  intro rest hrest
  simp [Reader.unary, expect, Reader.map, h rest hrest]

section Arithmetic

variable {ops : List Arithmetic} {p : Reader SqlExpr} {e f : SqlExpr}

/-- After the operands, where no operator of the precedence follows. -/
theorem operations_of_stops (hops : ∀ op ∈ ops, (Token.operator op.sql).binding = level)
    (hrest : Stops level rest) (n : Nat) : operations ops p n e rest = some (e, rest) := by
  cases n with
  | zero => rfl
  | succ n =>
    have hnone : choice (fun op : Arithmetic => [.operator op.sql]) ops rest = none :=
      choice_eq_none fun op hop => hrest.expect_eq_none (hops op hop ▸ Nat.le_refl _) []
    simp [operations, hnone]

theorem ReadsAs.arithmetic (hops : ∀ op ∈ ops, (Token.operator op.sql).binding = level)
    (h : ReadsAs p (level + 1) ts e) : ReadsAs (arithmetic ops p) level ts e := by
  intro rest hrest
  simp [Reader.arithmetic, h rest (hrest.mono (by omega)), operations_of_stops hops hrest]

theorem Arithmetic.sql_injective {op op' : Arithmetic} (h : op.sql = op'.sql) : op = op' := by
  revert h
  cases op <;> cases op' <;> decide

theorem ReadsAs.operation (hops : ∀ op ∈ ops, (Token.operator op.sql).binding = level)
    {op : Arithmetic} (hop : op ∈ ops) (hleft : ReadsAs p (level + 1) ts e)
    (hright : ReadsAs p (level + 1) us f) :
    ReadsAs (Reader.arithmetic ops p) level (ts ++ .operator op.sql :: us)
      (.binary e (.arithmetic op) f) := by
  intro rest hrest
  have hfollow : Stops (level + 1) (.operator op.sql :: (us ++ rest)) :=
    stops_cons.2 (by rw [hops op hop]; omega)
  have hchoice : choice (fun op : Arithmetic => [.operator op.sql]) ops
      (.operator op.sql :: (us ++ rest)) = some (op, us ++ rest) :=
    choice_eq_some hop (fun op' _ hsql => Arithmetic.sql_injective (by simpa using hsql))
      (by simp) _
  simp [Reader.arithmetic, hleft _ hfollow, operations, hchoice,
    hright rest (hrest.mono (by omega)), operations_of_stops hops hrest]

end Arithmetic

theorem ReadsAs.product (h : ReadsAs (Reader.unary d) 8 ts e) : ReadsAs (Reader.product d) 7 ts e :=
  ReadsAs.arithmetic (by decide) h

theorem ReadsAs.sum (h : ReadsAs (Reader.product d) 7 ts e) : ReadsAs (Reader.sum d) 6 ts e :=
  ReadsAs.arithmetic (by decide) h

/-- Where no predicate follows, an operand stands alone. -/
theorem suffix_of_stops (hrest : Stops 5 rest) : suffix d e rest = some (e, rest) := by
  cases rest with
  | nil => rfl
  | cons t rest =>
    have ht := stops_cons.1 hrest
    cases t with
    | operator s =>
      have hle : 5 ≤ (Token.operator s).binding := by
        simp only [Token.binding]
        split
        · decide
        · split <;> decide
      omega
    | word w =>
      have hw : w ∉ ["IS", "NOT", "LIKE", "ILIKE", "IN", "BETWEEN"] := by
        intro hw
        simp [Token.binding, hw] at ht
      simp only [List.mem_cons, List.not_mem_nil, or_false, not_or] at hw
      simp [suffix, hw]
    | mark c => rfl
    | identifier name => rfl
    | quotedText s => rfl
    | placeholder v => rfl
    | unfinished => rfl

theorem ReadsAs.comparison (h : ReadsAs (Reader.sum d) 6 ts e) :
    ReadsAs (Reader.comparison d) 5 ts e := by
  intro rest hrest
  simp [Reader.comparison, h rest (hrest.mono (by decide)), suffix_of_stops hrest]

/-- A predicate is read after its left operand. -/
theorem ReadsAs.comparison_append {f : SqlExpr} (h : ReadsAs (Reader.sum d) 6 ts e)
    (ht : t.binding = 5) (hsuffix : ReadsAs (suffix d e) 5 (t :: us) f) :
    ReadsAs (Reader.comparison d) 5 (ts ++ t :: us) f := by
  intro rest hrest
  have hleft := h (t :: us ++ rest) (stops_cons.2 (by omega))
  have hright := hsuffix rest hrest
  simp only [List.cons_append] at hleft hright
  simp [Reader.comparison, hleft, hright]

/-! ### What no layer starts with -/

theorem unary_operator {s : String} (hs : s ≠ "-") (ts : List (Token Value)) :
    unary d (.operator s :: ts) = none := by
  simp [unary, expect, hs, primary]

theorem unary_word {w : String} (hw : w ∉ ["TRUE", "FALSE", "EXISTS"])
    (hcall : SqlFunction.all.find? (fun f => f.name == w) = none) (ts : List (Token Value)) :
    unary d (.word w :: ts) = none := by
  simp only [List.mem_cons, List.not_mem_nil, or_false, not_or] at hw
  simp [unary, expect, primary, hw, hcall]

theorem sum_eq_none (h : unary d ts = none) : sum d ts = none := by
  simp [sum, product, arithmetic, h]

theorem negated_eq_none (h : unary d ts = none) (hnot : ∀ us, ts ≠ .word "NOT" :: us) :
    negated d ts = none := by
  simp [negated, expect_eq_none hnot, comparison, sum_eq_none h]

theorem disjunction_eq_none (h : unary d ts = none) (hnot : ∀ us, ts ≠ .word "NOT" :: us) :
    disjunction d ts = none := by
  simp [disjunction, conjunction, separated, Reader.map, negated_eq_none h hnot]

/-- An expression starts with no asterisk and with no keyword of a call or of a select. -/
theorem readers_expr_eq_none (n : Nat)
    (ht : t ∈ [.operator "*", .word "DISTINCT", .word "SELECT"]) (ts : List (Token Value)) :
    (readers n).expr (t :: ts) = none := by
  cases n with
  | zero => rfl
  | succ n =>
    change disjunction (readers n) (t :: ts) = none
    simp only [List.mem_cons, List.not_mem_nil, or_false] at ht
    rcases ht with rfl | rfl | rfl
    · exact disjunction_eq_none (unary_operator (by decide) ts) (by simp)
    · exact disjunction_eq_none (unary_word (by decide) (by decide) ts) (by simp)
    · exact disjunction_eq_none (unary_word (by decide) (by decide) ts) (by simp)

/-! ### Conditions -/

theorem negated_of_comparison {r : SqlExpr × List (Token Value)} (h : comparison d ts = some r) :
    negated d ts = some r := by
  -- No operand starts with `NOT`.
  have hnot : ∀ us, ts ≠ .word "NOT" :: us := by
    rintro us rfl
    have hnone : sum d (.word "NOT" :: us) = none :=
      sum_eq_none (unary_word (by decide) (by decide) us)
    simp [comparison, hnone] at h
  simp [negated, expect_eq_none hnot, h]

theorem ReadsAs.negated (h : ReadsAs (Reader.comparison d) 5 ts e) :
    ReadsAs (Reader.negated d) 5 ts e :=
  fun rest hrest => negated_of_comparison (h rest hrest)

/-- What is primary is a condition. -/
theorem ReadsAs.condition (h : ReadsAs (primary d) 8 ts e) : ReadsAs (Reader.negated d) 5 ts e :=
  h.unary.product.sum.comparison.negated

theorem ReadsAs.complement (h : ReadsAs d.negated 5 (.mark '(' :: ts) e) :
    ReadsAs (Reader.negated d) 5 (.word "NOT" :: .mark '(' :: ts) (.complement e) := by
  intro rest hrest
  have hread := h rest hrest
  rw [List.cons_append] at hread
  simp [Reader.negated, expect, Reader.map, hread]

theorem ReadsAs.conjunction {es : List SqlExpr}
    (h : ReadsAs (Reader.separated (.word "AND") (Reader.negated d)) 4 ts es) :
    ReadsAs (Reader.conjunction d) 4 ts (.chained .and es) :=
  h.map _

theorem ReadsAs.conjunction_single (h : ReadsAs (Reader.negated d) 5 ts e) :
    ReadsAs (Reader.conjunction d) 4 ts e := by
  have hlist := ReadsAs.separated (t := .word "AND") (i := ()) (f := fun _ => ts)
    (g := fun _ => e) (List.forall_mem_singleton.2 h)
  simpa [SqlExpr.chained] using ReadsAs.conjunction hlist

theorem ReadsAs.disjunction {es : List SqlExpr}
    (h : ReadsAs (Reader.separated (.word "OR") (Reader.conjunction d)) 3 ts es) :
    ReadsAs (Reader.disjunction d) 3 ts (.chained .or es) :=
  h.map _

theorem ReadsAs.disjunction_single (h : ReadsAs (Reader.conjunction d) 4 ts e) :
    ReadsAs (Reader.disjunction d) 3 ts e := by
  have hlist := ReadsAs.separated (t := .word "OR") (i := ()) (f := fun _ => ts)
    (g := fun _ => e) (List.forall_mem_singleton.2 h)
  simpa [SqlExpr.chained] using ReadsAs.disjunction hlist

/-! ### Comparisons and predicates -/

section Predicates

variable {f : SqlExpr} {isNegated : Bool}

theorem ReadsAs.nullTest (h : ReadsAs (Reader.sum d) 6 ts e) :
    ReadsAs (Reader.comparison d) 5
      (ts ++ .word "IS" :: ((if isNegated then [.word "NOT"] else []) ++ [.word "NULL"]))
      (.nullTest e isNegated) := by
  refine h.comparison_append (by decide) fun rest hrest => ?_
  cases isNegated <;> simp [suffix, choice, expect, Reader.map]

/-- What the text of a comparison spells is found. -/
theorem find?_comparison (op : Comparison) :
    [Comparison.eq, .notEq, .lt, .ltEq, .gt, .gtEq].find? (fun c => c.sql == op.sql) = some op := by
  cases op <;> decide

theorem Comparison.binding_sql (op : Comparison) : (Token.operator op.sql).binding = 5 := by
  cases op <;> decide

theorem compared_of_sum (op : Comparison) (h : sum d ts = some (f, rest)) :
    compared d e op ts = some (.binary e (.compare op) f, rest) := by
  -- No operand starts with a quantifier.
  have hnone : choice (fun q : Quantifier => [.word q.sql]) [.any, .all] ts = none := by
    refine choice_eq_none fun q _ => expect_eq_none ?_ []
    rintro us rfl
    have hsum : sum d (.word q.sql :: us) = none := by
      cases q <;> exact sum_eq_none (unary_word (by decide) (by decide) us)
    rw [hsum] at h
    cases h
  simp [compared, hnone, Reader.map, h]

theorem ReadsAs.compare (op : Comparison) (hleft : ReadsAs (Reader.sum d) 6 ts e)
    (hright : ReadsAs (Reader.sum d) 6 us f) :
    ReadsAs (Reader.comparison d) 5 (ts ++ .operator op.sql :: us) (.binary e (.compare op) f) := by
  refine hleft.comparison_append (Comparison.binding_sql op) fun rest hrest => ?_
  have hread := compared_of_sum (e := e) op (hright rest (hrest.mono (by decide)))
  simp [suffix, find?_comparison, hread]

theorem ReadsAs.quantified (op : Comparison) (q : Quantifier) {query : SqlSelect}
    (hleft : ReadsAs (Reader.sum d) 6 ts e) (hquery : ReadsWithin d.select us query) :
    ReadsAs (Reader.comparison d) 5
      (ts ++ .operator op.sql :: .word q.sql :: .mark '(' :: (us ++ [.mark ')']))
      (.quantified e op q query) := by
  refine hleft.comparison_append (Comparison.binding_sql op) fun rest hrest => ?_
  have hchoice : choice (fun q : Quantifier => [.word q.sql]) [.any, .all]
      (.word q.sql :: .mark '(' :: (us ++ .mark ')' :: rest)) =
        some (q, .mark '(' :: (us ++ .mark ')' :: rest)) := by
    cases q <;> simp [choice, expect, Quantifier.sql]
  simp [suffix, find?_comparison, compared, hchoice, Reader.map, hquery.enclosed]

/-- A keyword that may be negated. -/
def negatable (isNegated : Bool) (w : String) : List (Token Value) :=
  if isNegated then [.word "NOT", .word w] else [.word w]

/-- A predicate is read after its left operand and its keyword. -/
theorem ReadsAs.predicate {w : String} (hw : w ∈ ["LIKE", "ILIKE", "IN", "BETWEEN"])
    (hleft : ReadsAs (Reader.sum d) 6 ts e)
    (h : ReadsAs (Reader.predicate d e isNegated) 5 (.word w :: us) f) :
    ReadsAs (Reader.comparison d) 5 (ts ++ (negatable isNegated w ++ us)) f := by
  have hwords : w ≠ "IS" ∧ w ≠ "NOT" := by
    constructor <;> rintro rfl <;> revert hw <;> decide
  cases isNegated with
  | true =>
    refine hleft.comparison_append (t := .word "NOT") (by decide) fun rest hrest => ?_
    simpa [suffix] using h rest hrest
  | false =>
    have hbinding : (Token.word w).binding = 5 := by
      simp only [List.mem_cons, List.not_mem_nil, or_false] at hw
      rcases hw with rfl | rfl | rfl | rfl <;> decide
    refine hleft.comparison_append hbinding fun rest hrest => ?_
    have hread := h rest hrest
    rw [List.cons_append] at hread
    change suffix d e (.word w :: (us ++ rest)) = some (f, rest)
    rw [suffix, if_neg hwords.1, if_neg hwords.2, if_pos hw, hread]

theorem ReadsAs.pattern (m : PatternMatch) (hleft : ReadsAs (Reader.sum d) 6 ts e)
    (hright : ReadsAs (Reader.sum d) 6 us f) :
    ReadsAs (Reader.comparison d) 5
      (ts ++ (negatable m.negated (if m.ignoresCase then "ILIKE" else "LIKE") ++ us))
      (.binary e (.pattern m) f) := by
  obtain ⟨ignoresCase, isNegated⟩ := m
  cases ignoresCase with
  | true =>
    refine hleft.predicate (w := "ILIKE") (by decide) fun rest hrest => ?_
    simp [Reader.predicate, Reader.map, hright rest (hrest.mono (by decide))]
  | false =>
    refine hleft.predicate (w := "LIKE") (by decide) fun rest hrest => ?_
    simp [Reader.predicate, Reader.map, hright rest (hrest.mono (by decide))]

theorem ReadsAs.range {low high : SqlExpr} {vs : List (Token Value)}
    (hleft : ReadsAs (Reader.sum d) 6 ts e) (hlow : ReadsAs (Reader.sum d) 6 us low)
    (hhigh : ReadsAs (Reader.sum d) 6 vs high) :
    ReadsAs (Reader.comparison d) 5
      (ts ++ (negatable isNegated "BETWEEN" ++ (us ++ .word "AND" :: vs)))
      (.range e low high isNegated) := by
  refine hleft.predicate (by decide) fun rest hrest => ?_
  have hfirst := hlow (.word "AND" :: (vs ++ rest)) (stops_cons.2 (by decide))
  have hsecond := hhigh rest (hrest.mono (by decide))
  simp [Reader.predicate, bounds, hfirst, expect, Reader.map, hsecond]

theorem ReadsAs.membership (hleft : ReadsAs (Reader.sum d) 6 ts e)
    (hmembers : ReadsWithin (members d e isNegated) us f) :
    ReadsAs (Reader.comparison d) 5
      (ts ++ (negatable isNegated "IN" ++ .mark '(' :: (us ++ [.mark ')']))) f := by
  refine hleft.predicate (by decide) fun rest hrest => ?_
  simp [Reader.predicate, hmembers.enclosed]

theorem ReadsWithin.rowMembers {query : SqlSelect}
    (h : ReadsWithin d.select (.word "SELECT" :: us) query) :
    ReadsWithin (members d e isNegated) (.word "SELECT" :: us)
      (.rowMembership e query isNegated) := by
  intro rest
  have hread := h rest
  rw [List.cons_append] at hread
  simp [members, expect, Reader.map, hread]

theorem ReadsWithin.listMembers {n : Nat} {items : List SqlExpr}
    (h : ReadsWithin (separated (.mark ',') (readers n).expr) us items) :
    ReadsWithin (members (readers n) e isNegated) us (.listMembership e items isNegated) := by
  intro rest
  have hread := h rest
  -- A list of items is not taken for a subquery.
  have hselect : ∀ vs, us ++ .mark ')' :: rest ≠ .word "SELECT" :: vs := by
    intro vs hvs
    rw [hvs] at hread
    simp [separated, readers_expr_eq_none n (t := .word "SELECT") (by decide)] at hread
  simp [members, expect_eq_none hselect, Reader.map, hread]

end Predicates

/-! ### Primary expressions -/

theorem ReadsAs.parentheses (h : ReadsWithin d.expr ts e) :
    ReadsAs (primary d) 8 (.mark '(' :: (ts ++ [.mark ')'])) e := by
  intro rest hrest
  simp [primary, h.enclosed]

theorem ReadsAs.existence {query : SqlSelect} (h : ReadsWithin d.select ts query) :
    ReadsAs (primary d) 8 (.word "EXISTS" :: .mark '(' :: (ts ++ [.mark ')']))
      (.existence query false) := by
  intro rest hrest
  simp [primary, Reader.map, h.enclosed]

theorem ReadsAs.negated_existence {query : SqlSelect} (h : ReadsWithin d.select ts query) :
    ReadsAs (Reader.negated d) 5
      (.word "NOT" :: .word "EXISTS" :: .mark '(' :: (ts ++ [.mark ')']))
      (.existence query true) := by
  intro rest hrest
  simp [Reader.negated, expect, Reader.map, h.enclosed]

theorem ReadsAs.call (f : SqlFunction) (h : ReadsWithin (arguments d f) ts e) :
    ReadsAs (primary d) 8 (.word f.name :: .mark '(' :: (ts ++ [.mark ')'])) e := by
  intro rest hrest
  have hwords : f.name ≠ "TRUE" ∧ f.name ≠ "FALSE" ∧ f.name ≠ "EXISTS" := by
    cases f <;> decide
  have hfind : SqlFunction.all.find? (fun g => g.name == f.name) = some f := by
    cases f <;> decide
  simp [primary, hwords, hfind, h.enclosed]

theorem ReadsWithin.arguments {f : SqlFunction} {n : Nat} {es : List SqlExpr} (distinct : Bool)
    (h : ReadsWithin (separated (.mark ',') (readers n).expr) ts es) :
    ReadsWithin (arguments (readers n) f) ((if distinct then [.word "DISTINCT"] else []) ++ ts)
      (.call f distinct es) := by
  intro rest
  have hread := h rest
  -- The arguments are not taken for an asterisk or a keyword.
  have hne : ∀ t ∈ [Token.operator "*", .word "DISTINCT", .word "SELECT"], ∀ us,
      ts ++ .mark ')' :: rest ≠ t :: us := by
    intro t ht us hus
    rw [hus] at hread
    simp [separated, readers_expr_eq_none n ht] at hread
  have hstar := expect_eq_none (hne (.operator "*") (by decide))
  have hdistinct := expect_eq_none (hne (.word "DISTINCT") (by decide))
  cases distinct <;> simp [Reader.arguments, expect, hstar, hdistinct, Reader.map, hread]

end Reader

end TypedSql
