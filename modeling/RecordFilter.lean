import RecordFilter.Filter.Build
import RecordFilter.Main
import RecordFilter.Stored.Read
import RecordFilter.Proofs.Number.Numeral
import RecordFilter.Proofs.Number.Rounding
import RecordFilter.Proofs.Number.Shortest
import RecordFilter.Proofs.Expression.Derivation
import RecordFilter.Proofs.Expression.Reading
import RecordFilter.Proofs.Filter.FieldPath
import RecordFilter.Proofs.Expression.Lexing
import RecordFilter.Proofs.Expression.ViablePrefix
import RecordFilter.Proofs.Filter.Origin
import RecordFilter.Proofs.Filter.RoundTrip
import RecordFilter.Proofs.Filter.Wildcard
import RecordFilter.Proofs.Matching.ShortCircuit
import RecordFilter.Proofs.Matching.Fields
import RecordFilter.Proofs.Stored.RoundTrip
import RecordFilter.Proofs.Filter.PathText
import RecordFilter.Proofs.Expression.Cutting
import RecordFilter.Proofs.Expression.Composition
import RecordFilter.Proofs.Expression.ErrorPlace
import RecordFilter.Proofs.Expression.FieldText
import RecordFilter.Proofs.Matching.Comparison
import RecordFilter.Proofs.Matching.Duality
import RecordFilter.Proofs.Expression.Representable
import RecordFilter.Proofs.Matching.Expansion
import RecordFilter.Proofs.Matching.OrderLaws
import RecordFilter.Proofs.Expression.Nesting
import RecordFilter.Proofs.Expression.Spacing
import RecordFilter.Proofs.Text.Percent
import RecordFilter.Proofs.Matching.Reachability
import RecordFilter.Proofs.Matching.Monotone
import RecordFilter.Proofs.Matching.Rewriting
import RecordFilter.Proofs.Command.Report
import RecordFilter.Proofs.Settings.Precedence
import RecordFilter.Proofs.Command.Lines
import RecordFilter.Proofs.Filter.FieldList
import RecordFilter.Proofs.Command.LineInput
import RecordFilter.Proofs.Matching.JsonNumbers
import RecordFilter.Proofs.Expression.NumberToken
import RecordFilter.Proofs.Command.Caret
import RecordFilter.Proofs.Settings.Saved
import RecordFilter.Proofs.Matching.Compilation
