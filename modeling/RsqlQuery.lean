import RsqlQuery.Fault
import RsqlQuery.Filter.Catalogue
import RsqlQuery.Filter.Chain
import RsqlQuery.Filter.Comparison
import RsqlQuery.Filter.Operator
import RsqlQuery.Json.Document
import RsqlQuery.Json.Token
import RsqlQuery.Json.Tree
import RsqlQuery.Number.Binary
import RsqlQuery.Number.Layout
import RsqlQuery.Number.Numeral
import RsqlQuery.Number.Shortest
import RsqlQuery.Query.Basic
import RsqlQuery.Query.Labels
import RsqlQuery.Query.Section
import RsqlQuery.Query.Setting
import RsqlQuery.Text.Percent
import RsqlQuery.Text.Quoted
import RsqlQuery.Text.Utf8
import RsqlQuery.Time.Calendar
import RsqlQuery.Time.Zone
import RsqlQuery.Value.Basic
import RsqlQuery.Value.Conversion
import RsqlQuery.Value.Literal
import RsqlQuery.Proofs.Text.Percent
import RsqlQuery.Proofs.Filter.TextComparison
import RsqlQuery.Proofs.Number.Alphabet
import RsqlQuery.Proofs.Value.Sequence
import RsqlQuery.Proofs.Filter.Linking
import RsqlQuery.Proofs.Filter.NormalForm
import RsqlQuery.Proofs.Filter.Grammar
import RsqlQuery.Proofs.Filter.Structure
import RsqlQuery.Proofs.Filter.Context
import RsqlQuery.Proofs.Filter.History
import RsqlQuery.Proofs.Query.Content
import RsqlQuery.Proofs.Query.Merging
import RsqlQuery.Proofs.Text.Parenthesized
import RsqlQuery.Proofs.Filter.Membership
import RsqlQuery.Proofs.Text.Foreign
import RsqlQuery.Proofs.Value.Foreign
import RsqlQuery.Proofs.Filter.Foreign
import RsqlQuery.Proofs.Query.Validation
import RsqlQuery.Proofs.Query.Sections
import RsqlQuery.Proofs.Query.UrlSafety
import RsqlQuery.Proofs.Query.Building
import RsqlQuery.Proofs.Query.Grouping
import RsqlQuery.Proofs.Value.Decoded
import RsqlQuery.Proofs.Filter.Decoded
import RsqlQuery.Proofs.Time.Calendar
import RsqlQuery.Proofs.Time.Clock
import RsqlQuery.Proofs.Value.Date
import RsqlQuery.Proofs.Value.Nested
import RsqlQuery.Proofs.Number.Magnitude
import RsqlQuery.Proofs.Number.Nearest
import RsqlQuery.Proofs.Number.Interval
import RsqlQuery.Proofs.Number.Shortest
import RsqlQuery.Proofs.Number.Numeral
import RsqlQuery.Proofs.Number.Signed
import RsqlQuery.Proofs.Number.Layout
import RsqlQuery.Proofs.Number.Widening
import RsqlQuery.Proofs.Value.Numeric
import RsqlQuery.Proofs.Time.Columns
import RsqlQuery.Proofs.Time.Gregorian
import RsqlQuery.Proofs.Time.Timestamp
import RsqlQuery.Proofs.Query.Ordering
import RsqlQuery.Proofs.Query.Zones
import RsqlQuery.Proofs.Filter.Equality
import RsqlQuery.Proofs.Query.Equality
import RsqlQuery.Proofs.Json.Token
import RsqlQuery.Proofs.Json.Tree
import RsqlQuery.Proofs.Json.Document
import RsqlQuery.Proofs.Json.Grammar
import RsqlQuery.Proofs.Text.Canonical
import RsqlQuery.Proofs.Value.Regrouping
import RsqlQuery.Proofs.Json.Overrides
