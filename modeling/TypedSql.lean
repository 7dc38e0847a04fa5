import TypedSql.Dialect.ConfigText
import TypedSql.Event
import TypedSql.Proofs.Binding
import TypedSql.Proofs.Noninterference
import TypedSql.Proofs.Placeholders
import TypedSql.Proofs.Quoting
import TypedSql.Proofs.RoundTrip
import TypedSql.Proofs.SetOperators
import TypedSql.Proofs.Sources
import TypedSql.Proofs.Formation
import TypedSql.Proofs.Classes
import TypedSql.Proofs.NullOperands
import TypedSql.Proofs.Emulation
import TypedSql.Proofs.SortKeys
import TypedSql.Proofs.Wording
import TypedSql.Proofs.ClauseOrder
import TypedSql.Proofs.TypedLiterals
import TypedSql.Proofs.OperandOrder
import TypedSql.Proofs.Mutations
import TypedSql.Proofs.Defaults
import TypedSql.Proofs.ParameterCounts
import TypedSql.Proofs.ResultColumns
import TypedSql.Proofs.NullPlacement
import TypedSql.Proofs.Chains
import TypedSql.Proofs.Respelling
import TypedSql.Proofs.DottedNames
import TypedSql.Proofs.Assignments
import TypedSql.Proofs.Ranges
import TypedSql.Proofs.Walks
import TypedSql.Proofs.Warnings
import TypedSql.Proofs.Calls
import TypedSql.Proofs.CallTexts
import TypedSql.Proofs.CallPieces
import TypedSql.Proofs.WrittenCalls
import TypedSql.Proofs.Writer
import TypedSql.Proofs.WrittenLayouts
import TypedSql.Proofs.Embedding
