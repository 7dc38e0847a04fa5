import TypedSql.Proofs.Formation
import TypedSql.Proofs.Walks

/-!
# Calls

An expression that calls a function is a function with a list of arguments, which may be marked as
distinct (`Expr.call?`). `Call.pieces` lays out any such call, also one that no expression is: `*`
where there are no arguments, `DISTINCT` where it is marked, and any separator of a text aggregate
where a dialect wants a literal. `Call.IsShaped` is the shape that the calls of expressions have,
and `Call.LaidOut` what is left of these layouts for them. `Call.Made` says which public function
has made a call, and of what. `Statement.calls` lists the calls of a statement.
-/

namespace TypedSql

/-- A function with arguments. -/
structure Call where
  function : SqlFunction
  distinct : Bool
  arguments : List Expr

/-- The call that an expression is. -/
def Expr.call? : Expr → Option Call
  | .rowCount => some ⟨.count, false, []⟩
  | .valueCount distinct e => some ⟨.count, distinct, [e]⟩
  | .apply f e => some ⟨f.function, false, [e]⟩
  | .orElse e fallback => some ⟨.coalesce, false, [e, fallback]⟩
  | .extremum f first second rest => some ⟨f.function, false, first :: second :: rest⟩
  | .joinedText e separator => some ⟨.stringAgg, false, [e, .literal (.text separator) none]⟩
  | _ => none

/-- A function takes so many arguments. -/
def SqlFunction.Takes (n : Nat) : SqlFunction → Prop
  | .count => n ≤ 1
  | .coalesce | .stringAgg => n = 2
  | .greatest | .least => 2 ≤ n
  | .sum | .avg | .min | .max | .lower | .upper | .arrayAgg => n = 1

namespace Call

/-- The shape that calls have. -/
structure IsShaped (c : Call) : Prop where
  arity : c.function.Takes c.arguments.length
  distinct : c.distinct = true → c.function = .count ∧ c.arguments.length = 1
  separator : c.function = .stringAgg →
    ∃ e text, c.arguments = [e, .literal (.text text) none]

/-- A dialect needs a text literal as a separator, and there is none, or none in its place. -/
def LacksSeparator (d : Dialect) (c : Call) : Prop :=
  c.function = .stringAgg ∧ d.separatorClause = true ∧
    ∀ e text type?, c.arguments ≠ [e, .literal (.text text) type?]

/-- A separator as a literal; what is no text is laid out as anywhere else. -/
def separatorPieces (d : Dialect) (qualify : Bool) : Expr → List Piece
  | .literal (.text text) _ => [.quotedText text]
  | e => e.pieces d qualify

/-- The arguments of any call, shaped or not. -/
def argumentPieces (d : Dialect) (qualify : Bool) (c : Call) : List Piece :=
  match c.function, d.separatorClause, c.arguments with
  | .stringAgg, true, [e, separator] =>
    e.pieces d qualify ++ .text " SEPARATOR " :: separatorPieces d qualify separator
  | _, _, _ => Piece.commaSeparated (c.arguments.map (Expr.pieces d qualify))

/-- The layout of any call, shaped or not. -/
def pieces (d : Dialect) (qualify : Bool) (c : Call) : List Piece :=
  callPieces d c.function
    ((if c.arguments.isEmpty then [.text "*"] else []) ++
      (if c.distinct then [.text "DISTINCT "] else []) ++ c.argumentPieces d qualify)

/-- The text that a dialect writes as a literal for a call. -/
def literal? (d : Dialect) (c : Call) : Option String :=
  match c.function, d.separatorClause, c.arguments with
  | .stringAgg, true, [_, .literal (.text text) _] => some text
  | _, _, _ => none

theorem IsShaped.not_lacksSeparator {c : Call} (h : c.IsShaped) (d : Dialect) :
    ¬ c.LacksSeparator d := by
  rintro ⟨hfunction, -, hlacks⟩
  obtain ⟨e, text, harguments⟩ := h.separator hfunction
  exact hlacks e text none harguments

/-- Only `COUNT` has no arguments, and it is not marked as distinct then. -/
theorem IsShaped.eq_count_of_nil {c : Call} (h : c.IsShaped) (hnil : c.arguments = []) :
    c.function = .count ∧ c.distinct = false := by
  have harity : c.function.Takes 0 := by simpa [hnil] using h.arity
  refine ⟨?_, Bool.eq_false_iff.2 fun hdistinct => ?_⟩
  · cases hfunction : c.function <;> simp [hfunction, SqlFunction.Takes] at harity ⊢
  · have hone := (h.distinct hdistinct).2
    simp [hnil] at hone

theorem literal?_eq_none {d : Dialect} {c : Call}
    (h : c.function = .stringAgg → d.separatorClause = false) : c.literal? d = none := by
  unfold literal?
  split
  · rename_i hf hseparator _
    exact absurd hseparator (Bool.eq_false_iff.1 (h hf))
  · rfl

theorem argumentPieces_eq {d : Dialect} {c : Call}
    (h : c.function = .stringAgg → d.separatorClause = false) (qualify : Bool) :
    c.argumentPieces d qualify =
      Piece.commaSeparated (c.arguments.map (Expr.pieces d qualify)) := by
  unfold argumentPieces
  split
  · rename_i hf hseparator _
    exact absurd hseparator (Bool.eq_false_iff.1 (h hf))
  · rfl

/-- The layouts of shaped calls: `COUNT` of `*` or of distinct values, a text aggregate with its
separator as a literal, and a function of arguments between commas. -/
inductive LaidOut (d : Dialect) (qualify : Bool) : Call → List Piece → Prop
  | star : LaidOut d qualify ⟨.count, false, []⟩ (callPieces d .count [.text "*"])
  | distinct (e : Expr) : LaidOut d qualify ⟨.count, true, [e]⟩
      (callPieces d .count (.text "DISTINCT " :: e.pieces d qualify))
  | separator (h : d.separatorClause = true) (e : Expr) (text : String) :
      LaidOut d qualify ⟨.stringAgg, false, [e, .literal (.text text) none]⟩
        (callPieces d .stringAgg (e.pieces d qualify ++ [.text " SEPARATOR ", .quotedText text]))
  | plain {f : SqlFunction} (h : f = .stringAgg → d.separatorClause = false) (e : Expr)
      (es : List Expr) :
      LaidOut d qualify ⟨f, false, e :: es⟩
        (callPieces d f (Piece.commaSeparated ((e :: es).map (Expr.pieces d qualify))))

/-- Shaped calls have these layouts in all dialects. -/
theorem IsShaped.laidOut {c : Call} (h : c.IsShaped) (d : Dialect) (qualify : Bool) :
    c.LaidOut d qualify (c.pieces d qualify) := by
  obtain ⟨f, distinct, arguments⟩ := c
  cases arguments with
  | nil =>
    obtain ⟨rfl, rfl⟩ := h.eq_count_of_nil rfl
    exact .star
  | cons e es =>
    cases distinct with
    | true =>
      obtain ⟨rfl, hone⟩ := h.distinct rfl
      obtain rfl : es = [] := by simpa using hone
      exact .distinct e
    | false =>
      by_cases hclause : f = .stringAgg → d.separatorClause = false
      · have hpieces : pieces d qualify ⟨f, false, e :: es⟩ =
            callPieces d f (Piece.commaSeparated ((e :: es).map (Expr.pieces d qualify))) :=
          congrArg (callPieces d f) (argumentPieces_eq hclause qualify)
        exact hpieces ▸ .plain hclause e es
      · obtain ⟨rfl, hseparator⟩ := Classical.not_imp.1 hclause
        have hseparator : d.separatorClause = true := by simpa using hseparator
        obtain ⟨e, text, heq⟩ := h.separator rfl
        cases heq
        have hpieces : pieces d qualify ⟨.stringAgg, false, [e, .literal (.text text) none]⟩ =
            callPieces d .stringAgg
              (e.pieces d qualify ++ [.text " SEPARATOR ", .quotedText text]) := by
          simp [pieces, argumentPieces, separatorPieces, hseparator]
        exact hpieces ▸ .separator hseparator e text

end Call

section Nodes

variable {e : Expr} {c : Call}

/-- The calls of expressions are shaped. -/
theorem Expr.isShaped_of_call? (h : e.call? = some c) : c.IsShaped := by
  cases e with
  | rowCount =>
    cases h
    exact ⟨Nat.zero_le 1, nofun, nofun⟩
  | valueCount distinct e =>
    cases h
    exact ⟨Nat.le_refl 1, fun _ => ⟨rfl, rfl⟩, nofun⟩
  | apply f e =>
    cases h
    cases f <;> exact ⟨rfl, nofun, nofun⟩
  | orElse e fallback =>
    cases h
    exact ⟨rfl, nofun, nofun⟩
  | extremum f first second rest =>
    cases h
    cases f <;> exact ⟨Nat.le_add_left 2 rest.length, nofun, nofun⟩
  | joinedText e separator =>
    cases h
    exact ⟨rfl, nofun, fun _ => ⟨e, separator, rfl⟩⟩
  | _ => cases h

/-- An expression is laid out as its call. -/
theorem Expr.pieces_eq_of_call? (h : e.call? = some c) (d : Dialect) (qualify : Bool) :
    e.pieces d qualify = c.pieces d qualify := by
  cases e with
  | rowCount =>
    cases h
    rfl
  | valueCount distinct e =>
    cases h
    rfl
  | apply f e =>
    cases h
    cases f <;> rfl
  | orElse e fallback =>
    cases h
    rfl
  | extremum f first second rest =>
    cases h
    cases f <;>
      simp [Expr.pieces, Call.pieces, Call.argumentPieces, Extremum.function, itemPieces_eq]
  | joinedText e separator =>
    cases h
    cases hseparator : d.separatorClause <;>
      simp [Expr.pieces, Call.pieces, Call.argumentPieces, Call.separatorPieces, hseparator]
  | _ => cases h

end Nodes

/-! ### Making calls -/

/-- A public function makes a call, and an expression that is this call. -/
inductive Call.Made : Call → Expr → Prop
  | rowCount : Made ⟨.count, false, []⟩ .rowCount
  | valueCount (distinct : Bool) (e : Expr) :
      Made ⟨.count, distinct, [e]⟩ (.valueCount distinct e)
  | unary {f : UnaryFunction} {e result : Expr} (h : Expr.call f e = .ok result) :
      Made ⟨f.function, false, [e]⟩ result
  | coalesce {e fallback result : Expr} {operand : Operand}
      (hfallback : e.resolve operand = .ok fallback) (h : e.coalesce operand = .ok result) :
      Made ⟨.coalesce, false, [e, fallback]⟩ result
  | pick {f : Extremum} {first result : Expr} {operands : List Operand} {others : List Expr}
      (hne : operands ≠ [])
      (hothers : first.counterparts (.call f.function) operands = .ok others)
      (h : Expr.pick f first operands = .ok result) :
      Made ⟨f.function, false, first :: others⟩ result
  | stringAgg {e result : Expr} {separator : String} (h : e.stringAgg separator = .ok result) :
      Made ⟨.stringAgg, false, [e, .literal (.text separator) none]⟩ result

section Making

variable {e result : Expr} {c : Call} {tables : Set Table}

theorem Expr.length_of_counterparts {construct : Construct} {operands : List Operand}
    {es : List Expr} (h : e.counterparts construct operands = .ok es) :
    es.length = operands.length := by
  induction operands generalizing es with
  | nil =>
    cases h
    rfl
  | cons operand operands ih =>
    obtain ⟨x, -, h⟩ := bind_eq_ok.1 h
    obtain ⟨rest, hrest, h⟩ := bind_eq_ok.1 h
    obtain rfl := pure_eq_ok.1 h
    exact congrArg (· + 1) (ih hrest)

/-- A choice by order is a call of the expression and of what is beside it, if there is anything,
and the expression itself otherwise. -/
theorem Expr.call?_of_pick {f : Extremum} {operands : List Operand}
    (h : pick f e operands = .ok result) :
    ∃ others, e.counterparts (.call f.function) operands = .ok others ∧
      (operands = [] ∧ result = e ∨
        operands ≠ [] ∧ result.call? = some ⟨f.function, false, e :: others⟩) := by
  obtain ⟨_, -, h⟩ := bind_eq_ok.1 h
  obtain ⟨others, hothers, h⟩ := bind_eq_ok.1 h
  have hlength := length_of_counterparts hothers
  refine ⟨others, hothers, ?_⟩
  cases others with
  | nil => exact .inl ⟨List.eq_nil_of_length_eq_zero hlength.symm, (pure_eq_ok.1 h).symm⟩
  | cons second rest =>
    obtain rfl := pure_eq_ok.1 h
    refine .inr ⟨?_, rfl⟩
    rintro rfl
    cases hlength

/-- What is made as a call is this call. -/
theorem Call.Made.call?_eq (h : c.Made result) : result.call? = some c := by
  cases h with
  | rowCount | valueCount => rfl
  | unary h =>
    obtain ⟨-, rfl⟩ := Expr.call_eq_ok h
    rfl
  | coalesce hfallback h =>
    obtain ⟨fallback, hresolve, -, rfl⟩ := Expr.coalesce_eq_ok h
    cases hfallback.symm.trans hresolve
    rfl
  | pick hne hothers h =>
    obtain ⟨others, hcounterparts, ⟨hnil, -⟩ | ⟨-, hcall⟩⟩ := Expr.call?_of_pick h
    · exact absurd hnil hne
    · cases hothers.symm.trans hcounterparts
      exact hcall
  | stringAgg h =>
    obtain ⟨-, rfl⟩ := Expr.stringAgg_eq_ok h
    rfl

/-- An expression has been made as the call that it is, if it is one. -/
def Expr.IsMade (e : Expr) : Prop :=
  ∀ c, e.call? = some c → c.Made e

theorem Expr.Built.isMade (he : e.Built tables) : e.IsMade := by
  intro c h
  cases he.formed with
  | rowCount =>
    cases h
    exact .rowCount
  | valueCount distinct _ =>
    cases h
    exact .valueCount distinct _
  | apply _ hok =>
    cases h
    exact .unary hok
  | orElse _ _ hok =>
    obtain ⟨fallback, hresolve, -, heq⟩ := coalesce_eq_ok hok
    cases heq
    cases h
    exact .coalesce hresolve hok
  | extremum _ _ hok =>
    obtain ⟨others, hothers, ⟨-, heq⟩ | ⟨hne, hcall⟩⟩ := call?_of_pick hok
    -- An expression is not one of its own arguments.
    · exact absurd (congrArg sizeOf heq) (by simp; omega)
    · cases hcall
      cases h
      exact .pick hne hothers hok
  | joinedText _ hok =>
    cases h
    exact .stringAgg hok
  | _ => cases h

theorem Expr.IsHeld.isMade (he : e.IsHeld tables) : e.IsMade := by
  obtain he | ⟨type, v, w, -, rfl⟩ := he
  · exact he.isMade
  · exact nofun

end Making

/-! ### The calls of a statement -/

/-- The operands that a match is written with in lower case, if the dialect cannot ignore case
itself. -/
def Expr.lowered? (d : Dialect) : Expr → Option (Expr × Expr)
  | .binary l (.pattern m) r => if m.ignoresCase && !d.supportsIlike then some (l, r) else none
  | _ => none

/-- The call that writes an operand in lower case. -/
def Call.lower (e : Expr) : Call :=
  ⟨.lower, false, [e]⟩

theorem Call.isShaped_lower (e : Expr) : (Call.lower e).IsShaped :=
  ⟨rfl, nofun, nofun⟩

/-- Marks for calls, each with the name that is written for it: the calls that expressions are, and
those that write operands in lower case. -/
def Dialect.callMarks (d : Dialect) : Marks (String × Call) where
  opening e :=
    (e.call?.map fun c => (d.functionName c.function, c)).toList ++
      ((e.lowered? d).map fun operands => ("LOWER", .lower operands.1)).toList
  middle e := ((e.lowered? d).map fun operands => ("LOWER", .lower operands.2)).toList
  repeatsPlacedKeys := !d.supportsNullPlacement

/-- The calls of an expression that is a call are itself and those in its arguments. -/
theorem Expr.walk_of_call? {e : Expr} {c : Call} (h : e.call? = some c) (d : Dialect) :
    e.walk d.callMarks =
      (d.functionName c.function, c) :: c.arguments.flatMap (Expr.walk d.callMarks) := by
  have hlowered : e.lowered? d = none := by
    cases e with
    | binary => cases h
    | _ => rfl
  have hopening : d.callMarks.opening e = [(d.functionName c.function, c)] := by
    simp [Dialect.callMarks, h, hlowered]
  have hliteral : ∀ v type?, d.callMarks.opening (.literal v type?) = [] := fun _ _ => rfl
  cases e with
  | rowCount | valueCount | apply | orElse | extremum | joinedText =>
    cases h
    simp [Expr.walk, walkAll_eq, hopening, hliteral]
  | _ => cases h

/-- The calls of a match are those of its operands, each after the call that writes it in lower
case if there is one. -/
theorem Expr.walk_pattern (l r : Expr) (m : PatternMatch) (d : Dialect) :
    (Expr.binary l (.pattern m) r).walk d.callMarks =
      if m.ignoresCase && !d.supportsIlike then
        ("LOWER", .lower l) :: l.walk d.callMarks ++ ("LOWER", .lower r) :: r.walk d.callMarks
      else l.walk d.callMarks ++ r.walk d.callMarks := by
  have hopening : d.callMarks.opening (.binary l (.pattern m) r) =
      if m.ignoresCase && !d.supportsIlike then [("LOWER", .lower l)] else [] := by
    simp only [Dialect.callMarks, Expr.call?, Expr.lowered?]
    split <;> rfl
  have hmiddle : d.callMarks.middle (.binary l (.pattern m) r) =
      if m.ignoresCase && !d.supportsIlike then [("LOWER", .lower r)] else [] := by
    simp only [Dialect.callMarks, Expr.lowered?]
    split <;> rfl
  rw [Expr.walk, hopening, hmiddle]
  split <;> simp

/-- The calls that are written for a statement, in the order of their names. -/
def Statement.calls (s : Statement) (d : Dialect) : List (String × Call) :=
  s.walk d.callMarks

/-- All calls that are written for a statement are shaped. -/
theorem Statement.isShaped_of_mem_calls {s : Statement} {d : Dialect} {name : String} {c : Call}
    (h : (name, c) ∈ s.calls d) :
    c.IsShaped ∧ (name = d.functionName c.function ∨ name = "LOWER" ∧ c.function = .lower) := by
  have hlower : ∀ e, (Call.lower e).IsShaped ∧ ("LOWER" = d.functionName (Call.lower e).function ∨
      "LOWER" = "LOWER" ∧ (Call.lower e).function = .lower) :=
    fun e => ⟨Call.isShaped_lower e, .inr ⟨rfl, rfl⟩⟩
  refine Statement.forall_walk (m := d.callMarks) (P := fun p => p.2.IsShaped ∧
    (p.1 = d.functionName p.2.function ∨ p.1 = "LOWER" ∧ p.2.function = .lower)) ?_ s _ h
  intro e
  constructor
  · refine List.forall_mem_append.2 ⟨fun p hp => ?_, fun p hp => ?_⟩
    · obtain ⟨c, hc, rfl⟩ := Option.map_eq_some_iff.1 (Option.mem_toList.1 hp)
      exact ⟨e.isShaped_of_call? hc, .inl rfl⟩
    · obtain ⟨operands, -, rfl⟩ := Option.map_eq_some_iff.1 (Option.mem_toList.1 hp)
      exact hlower _
  · intro p hp
    obtain ⟨operands, -, rfl⟩ := Option.map_eq_some_iff.1 (Option.mem_toList.1 hp)
    exact hlower _

end TypedSql
