import TypedSql.Dialect.Config

/-!
# Configuration texts

A configuration is read from a JSON object with the fields `dialect`, `placeholder` and
`identifier_quote`, of which the last two may be missing or `null`, or from an array with the values
of the fields in this order, of which the last two may be left out. A dialect and a placeholder
style are given by their name, or by an object that holds `null` under this name.

The text is read once from left to right, and the first thing that is wrong in this order is
reported: a field name as soon as it is read, a missing field at the end of the object.
-/

namespace TypedSql

namespace DialectConfig

/-- The fields that have been read. -/
structure Fields where
  kind? : Option DialectKind := none
  placeholder? : Option (Option PlaceholderStyle) := none
  identifierQuote? : Option (Option Char) := none

/-- Report a fault of the text as a refusal of the configuration. -/
def liftText {α : Type} : Except Json.Fault α → Except ConfigError α
  | .ok a => .ok a
  | .error fault => .error (.text fault)

/-- Read the character that has to come next, after blanks. -/
def readMark (mark : Char) (cs : List Char) : Except ConfigError (List Char) :=
  match Json.skipBlanks cs with
  | [] => .error (.text .unfinished)
  | c :: cs => if c = mark then .ok cs else .error (.text .malformed)

/-- The dialect of a name. -/
def kindOf (name : String) : Except ConfigError DialectKind :=
  match DialectKind.names.lookup name with
  | some kind => .ok kind
  | none => .error (.content (.unknownDialect name))

/-- The placeholder style of a name. -/
def styleOf (name : String) : Except ConfigError PlaceholderStyle :=
  match PlaceholderStyle.names.lookup name with
  | some style => .ok style
  | none => .error (.content (.unknownPlaceholder name))

/-- The only character of a text. -/
def characterOf (text : String) : Except ConfigError Char :=
  match text.toList with
  | [c] => .ok c
  | _ => .error (.content (.notOneCharacter text))

/-- Read a string, after blanks. -/
def readText (cs : List Char) : Except ConfigError (String × List Char) := do
  let cs ← readMark '"' cs
  liftText (Json.readString cs)

/-- Read the `null` that stands under the name of a choice. -/
def readNull (cs : List Char) : Except ConfigError (List Char) := do
  match ← liftText (Json.readOpening cs) with
  | (.null, cs) => return cs
  | (found, _) => .error (.content (.wrongKind found .null))

/-- Read the name of a choice, or an object that holds `null` under this name. -/
def readChoice {α : Type} (choiceOf : String → Except ConfigError α) (cs : List Char) :
    Except ConfigError (α × List Char) :=
  match Json.skipBlanks cs with
  | '\x7b' :: cs => do
    let (name, cs) ← readText cs
    let choice ← choiceOf name
    let cs ← readNull (← readMark ':' cs)
    return (choice, ← readMark '\x7d' cs)
  | cs => do
    let (name, cs) ← readText cs
    return (← choiceOf name, cs)

/-- Read a text of one character. -/
def readCharacter (cs : List Char) : Except ConfigError (Char × List Char) := do
  match ← liftText (Json.readOpening cs) with
  | (.string s, cs) => return (← characterOf s, cs)
  | (found, _) => .error (.content (.wrongKind found .character))

/-- Read something or `null`. -/
def readOptional {α : Type} (read : List Char → Except ConfigError (α × List Char))
    (cs : List Char) : Except ConfigError (Option α × List Char) :=
  match Json.skipBlanks cs with
  | 'n' :: cs => do return (none, ← liftText (Json.readWord ['u', 'l', 'l'] cs))
  | cs => do
    let (a, cs) ← read cs
    return (some a, cs)

/-- A field is read only once. -/
def expectNew {α : Type} (name : String) (field? : Option α) : Except ConfigError Unit :=
  if field?.isSome then .error (.content (.repeatedField name)) else .ok ()

/-- Read the value of a field, after its name. -/
def readField (fields : Fields) (name : String) (cs : List Char) :
    Except ConfigError (Fields × List Char) :=
  match name with
  | "dialect" => do
    expectNew name fields.kind?
    let (kind, cs) ← readChoice kindOf (← readMark ':' cs)
    return ({ fields with kind? := some kind }, cs)
  | "placeholder" => do
    expectNew name fields.placeholder?
    let (style?, cs) ← readOptional (readChoice styleOf) (← readMark ':' cs)
    return ({ fields with placeholder? := some style? }, cs)
  | "identifier_quote" => do
    expectNew name fields.identifierQuote?
    let (quote?, cs) ← readOptional readCharacter (← readMark ':' cs)
    return ({ fields with identifierQuote? := some quote? }, cs)
  | _ => .error (.content (.unknownField name))

/--
Read fields up to the end of the object, from the opening quote of a name on. The number bounds the
fields: as there are three names, a fourth field is refused for its name.
-/
def readFields : Nat → Fields → List Char → Except ConfigError (Fields × List Char)
  | 0, _, _ => .error (.text .malformed)
  | n + 1, fields, cs => do
    let (name, cs) ← readText cs
    let (fields, cs) ← readField fields name cs
    match Json.skipBlanks cs with
    | [] => .error (.text .unfinished)
    | '\x7d' :: cs => return (fields, cs)
    | ',' :: cs => readFields n fields cs
    | _ => .error (.text .malformed)

/-- The configuration of the fields of an object. -/
def ofFields (fields : Fields) : Except ConfigError DialectConfig :=
  match fields.kind? with
  | none => .error (.content .missingDialect)
  | some kind =>
    .ok ⟨kind, fields.placeholder?.getD none, fields.identifierQuote?.getD none⟩

/-- Read an object, after its opening brace. -/
def readObject (cs : List Char) : Except ConfigError (DialectConfig × List Char) := do
  let (fields, cs) ←
    match Json.skipBlanks cs with
    | '\x7d' :: cs => .ok ({}, cs)
    | cs => readFields 4 {} cs
  return (← ofFields fields, cs)

/-- Go on to a further item of an array, if there is one, and stay where the array ends. -/
def nextItem? (cs : List Char) : Except Json.Fault (Option (List Char)) :=
  match Json.skipBlanks cs with
  | [] => .error .unfinished
  | ']' :: _ => .ok none
  | ',' :: cs =>
    match Json.skipBlanks cs with
    | [] => .error .unfinished
    | ']' :: _ => .error .malformed
    | cs => .ok (some cs)
  | _ => .error .malformed

/-- Read a further item of an array; one that is left out counts as `null`. -/
def readItem {α : Type} (read : List Char → Except ConfigError (α × List Char))
    (cs : List Char) : Except ConfigError (Option α × List Char) := do
  match ← liftText (nextItem? cs) with
  | none => return (none, cs)
  | some cs => readOptional read cs

/-- Read an array, after its opening bracket. -/
def readArray (cs : List Char) : Except ConfigError (DialectConfig × List Char) :=
  match Json.skipBlanks cs with
  | ']' :: _ => .error (.content .noItems)
  | cs => do
    let (kind, cs) ← readChoice kindOf cs
    let (style?, cs) ← readItem (readChoice styleOf) cs
    let (quote?, cs) ← readItem readCharacter cs
    return (⟨kind, style?, quote?⟩, ← readMark ']' cs)

/-- Read a configuration from a JSON text. -/
def ofText (text : String) : Except ConfigError DialectConfig := do
  let (config, cs) ←
    match ← liftText (Json.readOpening text.toList) with
    | (.object, cs) => readObject cs
    | (.array, cs) => readArray cs
    | (found, _) => .error (.content (.wrongKind found .configuration))
  if (Json.skipBlanks cs).isEmpty then return config else .error (.text .malformed)

end DialectConfig

end TypedSql
