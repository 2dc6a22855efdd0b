import RevenueDesk.Json.Quoted
import RevenueDesk.Settings
import RevenueDesk.Proofs.Web.QueryExchange
import RevenueDesk.Proofs.Sql.Acceptance
import RevenueDesk.Proofs.Sql.Rewriting
import RevenueDesk.Proofs.Sql.RewrittenClean
import RevenueDesk.Proofs.Sql.Wrapping
import RevenueDesk.Proofs.Sql.InStep
import RevenueDesk.Proofs.Sql.Exposure
import RevenueDesk.Proofs.Sql.Insertion
import RevenueDesk.Proofs.Sql.Nesting
import RevenueDesk.Proofs.Dashboard.OneTotal
import RevenueDesk.Proofs.Dashboard.KeyFigures
import RevenueDesk.Proofs.Sql.Binding
import RevenueDesk.Proofs.Sql.CommentGap
import RevenueDesk.Proofs.Dashboard.RowOrder
import RevenueDesk.Proofs.Ledger.Scaling
import RevenueDesk.Proofs.Dashboard.CurrencyUnit
import RevenueDesk.Proofs.Dashboard.NoRows
import RevenueDesk.Proofs.Web.DashboardExchange
import RevenueDesk.Proofs.Chat.Relaying
import RevenueDesk.Proofs.Web.Answering
import RevenueDesk.Proofs.Web.QuestionExchange
import RevenueDesk.Proofs.Text.Utf8
import RevenueDesk.Proofs.Web.QuestionBody
import RevenueDesk.Proofs.Dashboard.Buckets
import RevenueDesk.Proofs.Catalog.TableByTable
import RevenueDesk.Proofs.Json.Denoting
import RevenueDesk.Proofs.Chat.Decoding
import RevenueDesk.Proofs.Chat.AnyForm
import RevenueDesk.Proofs.Sql.WordGrammar
import RevenueDesk.Proofs.Text.Trimming
import RevenueDesk.Proofs.Ledger.Ranking
import RevenueDesk.Proofs.Ledger.Belonging
import RevenueDesk.Proofs.Ledger.Reference
import RevenueDesk.Proofs.Ledger.Collapsing
import RevenueDesk.Proofs.Dashboard.ClientEntries
import RevenueDesk.Proofs.Number.Quotient
import RevenueDesk.Proofs.Ledger.Curve
import RevenueDesk.Proofs.Ledger.Squares
import RevenueDesk.Proofs.Ledger.Concentration
import RevenueDesk.Proofs.Ledger.Chronology
import RevenueDesk.Proofs.Dashboard.MonthByMonth
import RevenueDesk.Proofs.Ledger.Variation
import RevenueDesk.Proofs.Dashboard.Dispersion
import RevenueDesk.Proofs.Ledger.Direction
import RevenueDesk.Proofs.Sql.WrittenTokens
import RevenueDesk.Proofs.Sql.Capture
import RevenueDesk.Proofs.Sql.Shortcut
import RevenueDesk.Proofs.Sql.LetterCase
import RevenueDesk.Proofs.Sql.Insensitive
import RevenueDesk.Proofs.Number.Rounding
import RevenueDesk.Proofs.Number.Conversion
import RevenueDesk.Proofs.Number.Numerals
import RevenueDesk.Proofs.Chat.Figures
import RevenueDesk.Proofs.Json.WholeNumbers
import RevenueDesk.Proofs.Chat.Scalars
import RevenueDesk.Proofs.Web.FailedReplies
import RevenueDesk.Proofs.Json.InRange
import RevenueDesk.Proofs.Web.QueryBody
import RevenueDesk.Proofs.Sql.Values
import RevenueDesk.Proofs.Web.SentValues
import RevenueDesk.Proofs.Catalog.Pairing
import RevenueDesk.Proofs.Catalog.ColumnList
import RevenueDesk.Proofs.Catalog.QuotedNames
import RevenueDesk.Proofs.Dashboard.RoleAverages
import RevenueDesk.Proofs.Ledger.Pieces
import RevenueDesk.Proofs.Dashboard.SkillFigures
import RevenueDesk.Proofs.Settings.Environment
import RevenueDesk.Proofs.Dashboard.ClientLabels
import RevenueDesk.Proofs.Chat.Addresses
import RevenueDesk.Proofs.Chat.PlainBase
