import ResourceQuery.Call
import ResourceQuery.Entries
import ResourceQuery.Filter.Basic
import ResourceQuery.Filter.Collect
import ResourceQuery.Filter.Group
import ResourceQuery.Filter.Json
import ResourceQuery.Filter.Truth
import ResourceQuery.Filter.Value
import ResourceQuery.Http.Method
import ResourceQuery.Http.Prefer
import ResourceQuery.Http.Request
import ResourceQuery.Json.Basic
import ResourceQuery.Json.Number
import ResourceQuery.Json.Parser
import ResourceQuery.Json.Printer
import ResourceQuery.ListLiteral
import ResourceQuery.Main
import ResourceQuery.Meta
import ResourceQuery.Number.Binary64
import ResourceQuery.Number.Decimal
import ResourceQuery.Number.Shortest
import ResourceQuery.Operator
import ResourceQuery.Payload
import ResourceQuery.QueryParams
import ResourceQuery.Scalar
import ResourceQuery.Select.Aliases
import ResourceQuery.Select.Basic
import ResourceQuery.Select.Json
import ResourceQuery.Select.Parser
import ResourceQuery.Select.Printer
import ResourceQuery.Service
import ResourceQuery.Statement.Basic
import ResourceQuery.Statement.Json
import ResourceQuery.Target
import ResourceQuery.Text.Blank
import ResourceQuery.Text.Hex
import ResourceQuery.Text.Percent
import ResourceQuery.Text.Quoted
import ResourceQuery.Text.Reader
import ResourceQuery.Text.Split
import ResourceQuery.Text.Unshown
import ResourceQuery.Text.Utf8
import ResourceQuery.Text.Word
import ResourceQuery.Translator
import ResourceQuery.Upsert
import ResourceQuery.Url.Address
import ResourceQuery.Url.Authority
import ResourceQuery.Url.Basic
import ResourceQuery.Url.Characters
import ResourceQuery.Url.Domain
import ResourceQuery.Url.Path
import ResourceQuery.Url.Punycode
import ResourceQuery.Url.Scheme
import ResourceQuery.Window
import ResourceQuery.Proofs.Collected
import ResourceQuery.Proofs.Filter.Clauses
import ResourceQuery.Proofs.KeySplit
import ResourceQuery.Proofs.Filter.Meaning
import ResourceQuery.Proofs.Filter.Presence
import ResourceQuery.Proofs.Select.Embeds
import ResourceQuery.Proofs.Statement.Attached
import ResourceQuery.Proofs.Rearranged
import ResourceQuery.Proofs.Windows
import ResourceQuery.Proofs.Readers
import ResourceQuery.Proofs.Select.Sound
import ResourceQuery.Proofs.Select.Said
import ResourceQuery.Proofs.Select.Reread
import ResourceQuery.Proofs.Select.TooDeep
import ResourceQuery.Proofs.Select.Regular
import ResourceQuery.Proofs.Select.Levels
import ResourceQuery.Proofs.Select.Faults
import ResourceQuery.Proofs.Select.Composed
import ResourceQuery.Proofs.Filter.Groups
import ResourceQuery.Proofs.Filter.Table
import ResourceQuery.Proofs.Filter.Stored
import ResourceQuery.Proofs.Filter.Narrowing
import ResourceQuery.Proofs.Filter.Inside
import ResourceQuery.Proofs.Json.Distinct
import ResourceQuery.Proofs.Json.Same
import ResourceQuery.Proofs.Select.Wire
import ResourceQuery.Proofs.Filter.DistinctKeys
import ResourceQuery.Proofs.Statement.RowFilter
import ResourceQuery.Proofs.Statement.Keys
import ResourceQuery.Proofs.Statement.WellFormed
import ResourceQuery.Proofs.Statement.DistinctKeys
import ResourceQuery.Proofs.Statement.Rearranged
import ResourceQuery.Proofs.Filter.Values
import ResourceQuery.Proofs.Filter.Words
import ResourceQuery.Proofs.Filter.Cut
import ResourceQuery.Proofs.Filter.Operands
import ResourceQuery.Proofs.Added
import ResourceQuery.Proofs.Statement.Places
import ResourceQuery.Proofs.Statement.QueryCall
import ResourceQuery.Proofs.Statement.Uses
import ResourceQuery.Proofs.Statement.LeftToFilters
import ResourceQuery.Proofs.Statement.Addressed
import ResourceQuery.Proofs.Preferences
import ResourceQuery.Proofs.Number.Numerals
import ResourceQuery.Proofs.Limits
import ResourceQuery.Proofs.ListText
import ResourceQuery.Proofs.Select.Tokens
import ResourceQuery.Proofs.Select.Spaced
import ResourceQuery.Proofs.Number.Rounding
import ResourceQuery.Proofs.Scalars
import ResourceQuery.Proofs.Orders
import ResourceQuery.Proofs.Plans
import ResourceQuery.Proofs.Targets
