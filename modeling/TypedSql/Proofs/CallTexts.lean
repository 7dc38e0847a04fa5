import TypedSql.Proofs.ParameterCounts
import TypedSql.Proofs.Parentheses

/-!
# Calls in texts

A call in a text is the name of a function and what stands between the parenthesis after it and
the one that closes it. `callsIn` reads the calls of a text, knowing nothing but names of functions:
what each is called, what is written for each of its arguments, and which texts are quoted in it.
`ShowsCalls` says of some tokens which calls they have, and what they leave outside of parentheses,
whatever comes after them. `read_star` to `read_joined` are what calls with the contents that
statements give them are read as.
-/

namespace TypedSql

/-! ### Reading calls -/

/-- Tokens that may be a value: there are some, the first is no `*`, and none is `DISTINCT`. -/
def IsValueText (ts : List (Token Nat)) : Prop :=
  ts ≠ [] ∧ ts.head? ≠ some (.operator "*") ∧ .word "DISTINCT" ∉ ts

instance (ts : List (Token Nat)) : Decidable (IsValueText ts) :=
  inferInstanceAs (Decidable (_ ∧ _ ∧ _))

/-- What is written for an argument. -/
inductive WrittenArgument
  /-- `*` alone. -/
  | star
  | value
  /-- `DISTINCT` before a value. -/
  | distinct
  | other
  deriving DecidableEq, Repr

/-- What some tokens are as an argument. -/
def WrittenArgument.read (ts : List (Token Nat)) : WrittenArgument :=
  if ts = [.operator "*"] then .star
  else if IsValueText ts then .value
  else if ts.head? = some (.word "DISTINCT") ∧ IsValueText ts.tail then .distinct
  else .other

/-- A call in a text. -/
structure WrittenCall where
  name : String
  arguments : List WrittenArgument
  /-- The texts that are quoted in the call, not those in further parentheses. -/
  literals : List String
  deriving DecidableEq, Repr

/-- The call of a name with some tokens in its parentheses; of further parentheses in them, there is
only the opening one. -/
def WrittenCall.read (name : String) (content : List (Token Nat)) : WrittenCall where
  name := name
  arguments :=
    if content = [] then [] else (content.splitOn (.mark ',')).map WrittenArgument.read
  literals := content.filterMap Token.quotedText?

/-- The tokens up to a parenthesis that closes one from before, where so many are to be closed
before that; of what is in parentheses, only the opening ones. -/
def contentFrom : Nat → List (Token Nat) → List (Token Nat)
  | _, [] => []
  | 0, t :: ts =>
    if t = .mark ')' then [] else t :: contentFrom (if t = .mark '(' then 1 else 0) ts
  | n + 1, t :: ts =>
    contentFrom (if t = .mark '(' then n + 2 else if t = .mark ')' then n else n + 1) ts

/-- The call that a token starts, with the tokens after it, if it is the name of a function. -/
def callAt (names : List String) : Token Nat → List (Token Nat) → Option WrittenCall
  | .word w, .mark '(' :: ts => if w ∈ names then some (.read w (contentFrom 0 ts)) else none
  | _, _ => none

/-- The calls in some tokens, in the order of their names. -/
def callsIn (names : List String) : List (Token Nat) → List WrittenCall
  | [] => []
  | t :: ts => (callAt names t ts).toList ++ callsIn names ts

/-- A token is no parenthesis and no name of a function. -/
def IsQuiet (names : List String) (t : Token Nat) : Prop :=
  t ∉ parentheses ∧ ∀ w ∈ names, t ≠ .word w

instance (names : List String) (t : Token Nat) : Decidable (IsQuiet names t) :=
  inferInstanceAs (Decidable (_ ∧ _))

/-- The parentheses of some tokens match, outside of them there are some others, and there are some
calls in them. -/
structure ShowsCalls (names : List String) (ts out : List (Token Nat)) (calls : List WrittenCall) :
    Prop where
  outside : ∀ us, contentFrom 0 (ts ++ us) = out ++ contentFrom 0 us
  inside : ∀ n us, contentFrom (n + 1) (ts ++ us) = contentFrom (n + 1) us
  calls : ∀ us, callsIn names (ts ++ us) = calls ++ callsIn names us

section ShowsCalls

variable {names : List String} {t : Token Nat} {ts us out out' : List (Token Nat)}
  {calls calls' : List WrittenCall} {w : String}

theorem callAt_eq_none (h : ∀ w ∈ names, t ≠ .word w) : callAt names t ts = none := by
  unfold callAt
  split
  · rename_i w ts
    exact if_neg fun hw => h w hw rfl
  · rfl

theorem callsIn_cons_of_ne (h : ∀ w ∈ names, t ≠ .word w) :
    callsIn names (t :: ts) = callsIn names ts := by
  rw [callsIn, callAt_eq_none h]
  rfl

theorem ShowsCalls.nil : ShowsCalls names [] [] [] :=
  ⟨fun _ => rfl, fun _ _ => rfl, fun _ => rfl⟩

theorem ShowsCalls.append (h : ShowsCalls names ts out calls)
    (h' : ShowsCalls names us out' calls') :
    ShowsCalls names (ts ++ us) (out ++ out') (calls ++ calls') := by
  refine ⟨fun vs => ?_, fun n vs => ?_, fun vs => ?_⟩
  · rw [List.append_assoc, h.outside, h'.outside, List.append_assoc]
  · rw [List.append_assoc, h.inside, h'.inside]
  · rw [List.append_assoc, h.calls, h'.calls, List.append_assoc]

/-- Quiet tokens are all outside, and there is no call in them. -/
theorem ShowsCalls.self (h : ∀ t ∈ ts, IsQuiet names t) : ShowsCalls names ts ts [] := by
  induction ts with
  | nil => exact .nil
  | cons t ts ih =>
    obtain ⟨⟨hparenthesis, hname⟩, hts⟩ := List.forall_mem_cons.1 h
    have hrest := ih hts
    simp only [parentheses, List.mem_cons, List.not_mem_nil, or_false, not_or] at hparenthesis
    refine ⟨fun us => ?_, fun n us => ?_, fun us => ?_⟩
    · simp [contentFrom, hparenthesis, hrest.outside]
    · simp [contentFrom, hparenthesis, hrest.inside]
    · rw [List.cons_append, callsIn_cons_of_ne hname, hrest.calls]

/-- Of tokens in parentheses, the calls are left and the opening parenthesis. -/
theorem ShowsCalls.parenthesized (h : ShowsCalls names ts out calls) :
    ShowsCalls names (.mark '(' :: ts ++ [.mark ')']) [.mark '('] calls := by
  refine ⟨fun us => ?_, fun n us => ?_, fun us => ?_⟩
  · simp [contentFrom, h.inside]
  · simp [contentFrom, h.inside]
  · have hopen : callsIn names (.mark '(' :: (ts ++ .mark ')' :: us)) =
        callsIn names (ts ++ .mark ')' :: us) := callsIn_cons_of_ne fun _ _ => nofun
    have hclose : callsIn names (.mark ')' :: us) = callsIn names us :=
      callsIn_cons_of_ne fun _ _ => nofun
    simp [hopen, h.calls, hclose]

/-- The name of a function before parentheses is a call. -/
theorem ShowsCalls.call (hw : w ∈ names) (h : ShowsCalls names ts out calls) :
    ShowsCalls names (.word w :: .mark '(' :: ts ++ [.mark ')']) [.word w, .mark '(']
      (.read w out :: calls) := by
  have hrest := h.parenthesized
  refine ⟨fun us => ?_, fun n us => ?_, fun us => ?_⟩
  · simpa [contentFrom] using hrest.outside us
  · simpa [contentFrom] using hrest.inside n us
  · have hcontent : contentFrom 0 (ts ++ .mark ')' :: us) = out := by
      simp [h.outside, contentFrom]
    have hcall : callAt names (.word w) (.mark '(' :: (ts ++ .mark ')' :: us)) =
        some (.read w out) := by
      simp [callAt, hw, hcontent]
    have hcalls : callsIn names (.mark '(' :: (ts ++ .mark ')' :: us)) =
        calls ++ callsIn names us := by
      simpa using hrest.calls us
    have hassoc : .word w :: .mark '(' :: ts ++ [.mark ')'] ++ us =
        .word w :: .mark '(' :: (ts ++ .mark ')' :: us) := by
      simp
    rw [hassoc, callsIn, hcall, hcalls]
    rfl

end ShowsCalls

/-! ### What stands in the parentheses of a call -/

/-- A token is no comma, no `DISTINCT` and no quoted text. -/
def IsCalm (t : Token Nat) : Prop :=
  t ∉ [.mark ',', .word "DISTINCT"] ∧ t.quotedText? = none

instance (t : Token Nat) : Decidable (IsCalm t) :=
  inferInstanceAs (Decidable (_ ∧ _))

/-- Calm tokens, as they may come after others. -/
def Follows (ts : List (Token Nat)) : Prop :=
  ∀ t ∈ ts, IsCalm t

instance (ts : List (Token Nat)) : Decidable (Follows ts) :=
  inferInstanceAs (Decidable (∀ t ∈ ts, IsCalm t))

/-- Calm tokens that are a value. -/
structure Stands (ts : List (Token Nat)) : Prop where
  follows : Follows ts
  ne_nil : ts ≠ []
  head : ts.head? ≠ some (.operator "*")

/-- So many lists of tokens of some kind with a separator between them. -/
def Joined (separator : List (Token Nat)) (P : List (Token Nat) → Prop) (n : Nat)
    (ts : List (Token Nat)) : Prop :=
  ∃ parts, parts.length = n ∧ (∀ part ∈ parts, P part) ∧ ts = separator.intercalate parts

section Contents

variable {ts us : List (Token Nat)} {name : String} {n : Nat}

theorem Follows.append (h : Follows ts) (h' : Follows us) : Follows (ts ++ us) :=
  List.forall_mem_append.2 ⟨h, h'⟩

theorem Stands.append (h : Stands ts) (h' : Follows us) : Stands (ts ++ us) where
  follows := h.follows.append h'
  ne_nil := List.append_ne_nil_of_left_ne_nil h.ne_nil us
  head := by
    rw [List.head?_append_of_ne_nil ts h.ne_nil]
    exact h.head

theorem Stands.isValueText (h : Stands ts) : IsValueText ts :=
  ⟨h.ne_nil, h.head, fun hmem => (h.follows _ hmem).1 (by simp)⟩

theorem Follows.quotedTexts (h : Follows ts) : ts.filterMap Token.quotedText? = [] :=
  List.filterMap_eq_nil_iff.2 fun t ht => (h t ht).2

theorem Follows.not_comma_mem (h : Follows ts) : .mark ',' ∉ ts :=
  fun hmem => (h _ hmem).1 (by simp)

theorem IsValueText.read (h : IsValueText ts) : WrittenArgument.read ts = .value := by
  have hstar : ts ≠ [.operator "*"] := by
    rintro rfl
    exact h.2.1 rfl
  rw [WrittenArgument.read, if_neg hstar, if_pos h]

/-- Tokens without a comma are one argument. -/
theorem read_of_not_comma_mem (hne : ts ≠ []) (hcomma : .mark ',' ∉ ts) :
    WrittenCall.read name ts = ⟨name, [.read ts], ts.filterMap Token.quotedText?⟩ := by
  have hsplit : ([Token.mark ','].intercalate [ts]).splitOn (.mark ',') = [ts] :=
    List.splitOn_intercalate _ (List.forall_mem_singleton.2 hcomma) (by simp)
  rw [List.intercalate_singleton] at hsplit
  rw [WrittenCall.read, if_neg hne, hsplit]
  rfl

theorem read_star : WrittenCall.read name [.operator "*"] = ⟨name, [.star], []⟩ :=
  read_of_not_comma_mem (by simp) (by simp)

theorem read_value (h : Stands ts) : WrittenCall.read name ts = ⟨name, [.value], []⟩ := by
  rw [read_of_not_comma_mem h.ne_nil h.follows.not_comma_mem, h.isValueText.read,
    h.follows.quotedTexts]

theorem read_distinct (h : Stands ts) :
    WrittenCall.read name (.word "DISTINCT" :: ts) = ⟨name, [.distinct], []⟩ := by
  have hcomma : .mark ',' ∉ Token.word "DISTINCT" :: ts := by
    simpa using h.follows.not_comma_mem
  have hquoted : (Token.word "DISTINCT" :: ts).filterMap Token.quotedText? = [] :=
    h.follows.quotedTexts
  have hvalue : ¬ IsValueText (.word "DISTINCT" :: ts) := fun hvalue => hvalue.2.2 (by simp)
  have hread : WrittenArgument.read (.word "DISTINCT" :: ts) = .distinct := by
    rw [WrittenArgument.read, if_neg (by simp), if_neg hvalue, if_pos ⟨rfl, h.isValueText⟩]
  rw [read_of_not_comma_mem (by simp) hcomma, hquoted, hread]

theorem read_separator (h : Stands ts) (text : String) :
    WrittenCall.read name (ts ++ [.word "SEPARATOR", .quotedText text]) =
      ⟨name, [.value], [text]⟩ := by
  have hcomma : .mark ',' ∉ ts ++ [Token.word "SEPARATOR", .quotedText text] := by
    simpa using h.follows.not_comma_mem
  have hquoted : (ts ++ [Token.word "SEPARATOR", .quotedText text]).filterMap
      Token.quotedText? = [text] := by
    rw [List.filterMap_append, h.follows.quotedTexts]
    rfl
  have hvalue : IsValueText (ts ++ [.word "SEPARATOR", .quotedText text]) := by
    obtain ⟨hne, hhead, hdistinct⟩ := h.isValueText
    refine ⟨by simp, ?_, by simpa using hdistinct⟩
    rwa [List.head?_append_of_ne_nil ts hne]
  rw [read_of_not_comma_mem (by simp) hcomma, hquoted, hvalue.read]

/-- What holds of the separator and of what is joined holds of all. -/
theorem Joined.forall {separator : List (Token Nat)} {P : List (Token Nat) → Prop}
    {Q : Token Nat → Prop} (h : Joined separator P n ts) (hseparator : ∀ t ∈ separator, Q t)
    (hpart : ∀ part, P part → ∀ t ∈ part, Q t) : ∀ t ∈ ts, Q t := by
  obtain ⟨parts, -, hparts, rfl⟩ := h
  induction parts with
  | nil => exact List.forall_mem_nil _
  | cons part parts ih =>
    obtain ⟨hfirst, hparts⟩ := List.forall_mem_cons.1 hparts
    cases parts with
    | nil => simpa using hpart part hfirst
    | cons next rest =>
      rw [List.intercalate_cons_cons]
      exact List.forall_mem_append.2
        ⟨List.forall_mem_append.2 ⟨hpart part hfirst, hseparator⟩, ih hparts⟩

theorem Joined.stands {separator : List (Token Nat)} (h : Joined separator Stands (n + 1) ts)
    (hseparator : Follows separator) : Stands ts := by
  have hfollows : Follows ts := h.forall hseparator fun _ hpart => hpart.follows
  obtain ⟨parts, hlength, hparts, rfl⟩ := h
  obtain ⟨part, parts, rfl⟩ := List.exists_cons_of_length_eq_add_one hlength
  have hpart := hparts part (List.mem_cons_self ..)
  cases parts with
  | nil => simpa using hpart
  | cons next rest =>
    rw [List.intercalate_cons_cons, List.append_assoc] at hfollows ⊢
    exact hpart.append (List.forall_mem_append.1 hfollows).2

/-- Values between commas are as many arguments. -/
theorem read_joined (h : Joined [.mark ','] Stands (n + 1) ts) :
    WrittenCall.read name ts = ⟨name, List.replicate (n + 1) .value, []⟩ := by
  have hquoted : ts.filterMap Token.quotedText? = [] :=
    List.filterMap_eq_nil_iff.2 (h.forall (List.forall_mem_singleton.2 rfl)
      fun part hpart t ht => (hpart.follows t ht).2)
  obtain ⟨parts, hlength, hparts, rfl⟩ := h
  obtain ⟨part, parts, rfl⟩ := List.exists_cons_of_length_eq_add_one hlength
  have hne : [Token.mark ','].intercalate (part :: parts) ≠ [] := by
    have hpart := (hparts part (List.mem_cons_self ..)).ne_nil
    cases parts <;> simp [List.intercalate_cons_cons, hpart]
  have hsplit : ([Token.mark ','].intercalate (part :: parts)).splitOn (.mark ',') =
      part :: parts :=
    List.splitOn_intercalate _ (fun part hpart => (hparts part hpart).follows.not_comma_mem)
      (by simp)
  have hread : (part :: parts).map WrittenArgument.read = List.replicate (n + 1) .value := by
    rw [← hlength, List.map_eq_replicate_iff]
    exact fun part hpart => (hparts part hpart).isValueText.read
  rw [WrittenCall.read, if_neg hne, hsplit, hread, hquoted]

end Contents

end TypedSql
