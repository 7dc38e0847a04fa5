import TypedSql.Dialect.Basic
import TypedSql.Json.Reader
import TypedSql.Text.Escaped

/-!
# Configured dialects

A configuration names one of the built-in dialects and may override its placeholders and its
identifier quote. A quote has to be a punctuation character of ASCII, so that it never looks like a
part of a name.
-/

namespace TypedSql

/-- The built-in dialects. -/
inductive DialectKind
  | generic
  | postgres
  | sqlite
  | mysql
  deriving DecidableEq, Repr

/-- The dialect of a kind. -/
def DialectKind.dialect : DialectKind → Dialect
  | .generic => .generic
  | .postgres => .postgres
  | .sqlite => .sqlite
  | .mysql => .mysql

/-- Every kind with the name that a configuration uses for it. -/
def DialectKind.names : List (String × DialectKind) :=
  [("generic", .generic), ("postgres", .postgres), ("sqlite", .sqlite), ("mysql", .mysql)]

/-- Every placeholder style with the name that a configuration uses for it. -/
def PlaceholderStyle.names : List (String × PlaceholderStyle) :=
  [("question_mark", .questionMark), ("numbered", .numbered)]

/-- The name that a configuration uses for a placeholder style. -/
def PlaceholderStyle.name : PlaceholderStyle → String
  | .questionMark => "question_mark"
  | .numbered => "numbered"

/-- The choice of a dialect and what it overrides. -/
structure DialectConfig where
  kind : DialectKind
  placeholder? : Option PlaceholderStyle
  identifierQuote? : Option Char
  deriving DecidableEq, Repr

/-- What a configuration text has to hold at some place. -/
inductive ConfigPart
  /-- All of the configuration. -/
  | configuration
  /-- An identifier quote. -/
  | character
  /-- The value of a field that has a choice as its name. -/
  | null
  deriving DecidableEq, Repr

/-- What can be wrong with the content of a configuration text. -/
inductive ConfigFault
  | unknownField (name : String)
  | repeatedField (name : String)
  | missingDialect
  | unknownDialect (name : String)
  | unknownPlaceholder (name : String)
  | notOneCharacter (text : String)
  /-- The configuration is an array without items. -/
  | noItems
  /-- A document of another kind stands where a part was expected. -/
  | wrongKind (found : Json.Opening) (wanted : ConfigPart)
  deriving DecidableEq, Repr

/-- Why a configuration is refused. -/
inductive ConfigError
  /-- The text is not JSON. -/
  | text (fault : Json.Fault)
  /-- The text is JSON as far as it was read, but no configuration. -/
  | content (fault : ConfigFault)
  /-- The identifier quote is no punctuation character. -/
  | invalidQuote (quote : Char)
  deriving DecidableEq, Repr

/-- How a message calls a document. -/
def ConfigFault.describe : Json.Opening → String
  | .null => "null"
  | .bool b => "boolean `" ++ (if b then "true" else "false") ++ "`"
  | .number (.int n) => "integer `" ++ toString n ++ "`"
  | .number (.float x) => "floating point `" ++ (Json.Number.float x).text ++ "`"
  | .string s => "string " ++ Text.quotedString s
  | .array => "sequence"
  | .object => "map"

/-- How a message calls what was expected. -/
def ConfigPart.name : ConfigPart → String
  | .configuration => "struct DialectConfig"
  | .character => "a character"
  | .null => "unit"

/-- The wording of a fault in the content of a configuration text. -/
def ConfigFault.message : ConfigFault → String
  | .unknownField name =>
    "unknown field `" ++ name ++
      "`, expected one of `dialect`, `placeholder`, `identifier_quote`"
  | .repeatedField name => "duplicate field `" ++ name ++ "`"
  | .missingDialect => "missing field `dialect`"
  | .unknownDialect name =>
    "unknown variant `" ++ name ++ "`, expected one of `generic`, `postgres`, `sqlite`, `mysql`"
  | .unknownPlaceholder name =>
    "unknown variant `" ++ name ++ "`, expected `question_mark` or `numbered`"
  | .notOneCharacter text =>
    "invalid value: " ++ describe (.string text) ++ ", expected " ++ ConfigPart.character.name
  | .noItems => "invalid length 0, expected struct DialectConfig with 3 elements"
  | .wrongKind found wanted => "invalid type: " ++ describe found ++ ", expected " ++ wanted.name

/-- The wording of a refused identifier quote. -/
def ConfigError.quoteMessage (quote : Char) : String :=
  "identifier quote " ++ Text.quotedChar quote ++ " is not a punctuation character"

/-- The punctuation of ASCII: its visible characters that are no letters and no digits. -/
def isAsciiPunctuation (c : Char) : Bool :=
  0x21 ≤ c.toNat && c.toNat ≤ 0x7e && !c.isAlphanum

namespace DialectConfig

/-- The dialect of a configuration, with its overrides in place. -/
def dialect (config : DialectConfig) : Dialect :=
  let base := config.kind.dialect
  { base with
    placeholderStyle := config.placeholder?.getD base.placeholderStyle
    identifierQuote := config.identifierQuote?.getD base.identifierQuote }

/-- The dialect of a configuration, unless its identifier quote is refused. -/
def toDialect (config : DialectConfig) : Except ConfigError Dialect :=
  match config.identifierQuote? with
  | some quote =>
    if isAsciiPunctuation quote then .ok config.dialect else .error (.invalidQuote quote)
  | none => .ok config.dialect

end DialectConfig

end TypedSql
