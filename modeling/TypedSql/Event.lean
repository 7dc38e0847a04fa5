import TypedSql.Compiled
import TypedSql.Dialect.Config

/-!
# Events

What a program that builds and compiles statements may want to log: that a dialect was configured,
what a dialect lacks for a statement, and what was compiled. `Statement.events` lists the events of
one compilation in order.
-/

namespace TypedSql

/-- The severity of an event. -/
inductive Level
  | trace
  | debug
  | warn
  deriving DecidableEq, Repr

/-- The name of a severity. -/
def Level.name : Level → String
  | .trace => "trace"
  | .debug => "debug"
  | .warn => "warn"

/-- The severity of a notice: a warning if the engine will refuse what is written. -/
def Notice.level : Notice → Level
  | .ilikeEmulated | .nullPlacementEmulated => .debug
  | .returningUnsupported | .quantifiedUnsupported _ _ => .warn

/-- The wording of a notice. -/
def Notice.message : Notice → String
  | .ilikeEmulated => "ILIKE not supported, comparing lower-cased operands"
  | .nullPlacementEmulated => "NULLS FIRST/LAST not supported, sorting on IS NULL first"
  | .returningUnsupported => "rendering RETURNING for a dialect that does not advertise support"
  | .quantifiedUnsupported op quantifier =>
    "rendering " ++ op.sql ++ " " ++ quantifier.sql ++
      " for a dialect that does not advertise support"

/-- Something that happened. -/
inductive Event
  /-- A configuration was accepted. -/
  | configured (config : DialectConfig)
  /-- A construct met a dialect that lacks it. -/
  | noticed (dialect : String) (n : Notice)
  /-- A statement was compiled. -/
  | compiled (verb dialect : String) (parameters : Nat)
  /-- The text of a compiled statement. -/
  | rendered (sql : String)
  deriving DecidableEq, Repr

namespace Event

/-- The severity of an event. -/
def level : Event → Level
  | .configured _ => .debug
  | .noticed _ n => n.level
  | .compiled _ _ _ => .debug
  | .rendered _ => .trace

/-- The wording of an event. -/
def message : Event → String
  | .configured _ => "dialect configured"
  | .noticed _ n => n.message
  | .compiled _ _ _ => "compiled statement"
  | .rendered _ => "rendered SQL"

/-- An optional override in a log: its text in `Some`, or `None`. -/
def overrideText (text? : Option String) : String :=
  match text? with
  | some text => "Some(" ++ text ++ ")"
  | none => "None"

/-- A placeholder style in a log. -/
def styleText : PlaceholderStyle → String
  | .questionMark => "QuestionMark"
  | .numbered => "Numbered"

/-- The fields of an event. -/
def fields : Event → List (String × Json)
  | .configured config =>
    [("dialect", .string config.kind.dialect.name),
      ("placeholder", .string (overrideText (config.placeholder?.map styleText))),
      ("identifier_quote",
        .string (overrideText (config.identifierQuote?.map Text.quotedChar)))]
  | .noticed dialect _ => [("dialect", .string dialect)]
  | .compiled verb dialect parameters =>
    [("statement", .string verb), ("dialect", .string dialect), ("params", .ofNat parameters)]
  | .rendered sql => [("sql", .string sql)]

/-- The written form of an event. -/
def toJson (e : Event) : Json :=
  .object (("level", .string e.level.name) :: ("message", .string e.message) :: e.fields)

end Event

/-- The events of making the dialect of a configuration. -/
def DialectConfig.events (config : DialectConfig) : List Event :=
  match config.toDialect with
  | .ok _ => [.configured config]
  | .error _ => []

/-- The events of compiling a statement: notices as they arise, then what was compiled. -/
def Statement.events (s : Statement) (d : Dialect) : List Event :=
  let ps := s.pieces d
  (Piece.notices ps).map (Event.noticed d.name) ++
    [.compiled s.verb d.name (Piece.parameters ps).length, .rendered (Piece.sql d ps)]

end TypedSql
