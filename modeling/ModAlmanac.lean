import ModAlmanac.Text.Base64
import ModAlmanac.Text.Blank
import ModAlmanac.Text.Digit
import ModAlmanac.Text.Lowercase
import ModAlmanac.Text.Nesting
import ModAlmanac.Text.Percent
import ModAlmanac.Text.Quoted
import ModAlmanac.Text.Scan
import ModAlmanac.Text.Utf8
import ModAlmanac.Text.Word
import ModAlmanac.Number.Binary64
import ModAlmanac.Number.Decimal
import ModAlmanac.Number.Numeral
import ModAlmanac.OrderedMap
import ModAlmanac.Value
import ModAlmanac.Json.Encoding
import ModAlmanac.Json.Printer
import ModAlmanac.Json.Reader
import ModAlmanac.Lua.Block
import ModAlmanac.Lua.Field
import ModAlmanac.Lua.Gap
import ModAlmanac.Lua.Literal
import ModAlmanac.Lua.NamedBlock
import ModAlmanac.Lua.Quote
import ModAlmanac.Lua.Table
import ModAlmanac.Lua.Token
import ModAlmanac.Source.Config
import ModAlmanac.Source.Declaration
import ModAlmanac.Source.Locale
import ModAlmanac.Source.Sheet
import ModAlmanac.Expr.Evaluate
import ModAlmanac.Expr.Split
import ModAlmanac.Expr.Substitution
import ModAlmanac.Expr.Syntax
import ModAlmanac.Snapshot.Basic
import ModAlmanac.Snapshot.Compile
import ModAlmanac.Snapshot.Decode
import ModAlmanac.Snapshot.Encode
import ModAlmanac.Snapshot.Linking
import ModAlmanac.ModKey
import ModAlmanac.Version
import ModAlmanac.Repository.Host
import ModAlmanac.Repository.Path
import ModAlmanac.Cache
import ModAlmanac.Settings
import ModAlmanac.Http.Address
import ModAlmanac.Http.Exchange
import ModAlmanac.GitHub.Backup
import ModAlmanac.GitHub.Client
import ModAlmanac.Almanac.Basic
import ModAlmanac.Almanac.Build
import ModAlmanac.Almanac.Configured
import ModAlmanac.Almanac.Lookup
import ModAlmanac.Site.Respond
import ModAlmanac.Site.Route
import ModAlmanac.Command.Arguments
import ModAlmanac.Command.Fetch
import ModAlmanac.Main
import ModAlmanac.Proofs.FirstFault
import ModAlmanac.Proofs.Number.Bits
import ModAlmanac.Proofs.Number.Rounding
import ModAlmanac.Proofs.Number.Range
import ModAlmanac.Proofs.Number.Digits
import ModAlmanac.Proofs.Number.Shortest
import ModAlmanac.Proofs.Number.Written
import ModAlmanac.Proofs.Number.Finite
import ModAlmanac.Proofs.Number.Numerals
import ModAlmanac.Proofs.TextKeys
import ModAlmanac.Proofs.Finite
import ModAlmanac.Proofs.Text.Utf8
import ModAlmanac.Proofs.Text.Cutting
import ModAlmanac.Proofs.Text.Percent
import ModAlmanac.Proofs.Text.Balanced
import ModAlmanac.Proofs.Text.Blank
import ModAlmanac.Proofs.Text.Skipping
import ModAlmanac.Proofs.Lua.Grammar
import ModAlmanac.Proofs.Lua.Blocks
import ModAlmanac.Proofs.Lua.NamedBlocks
import ModAlmanac.Proofs.Lua.PlainSource
import ModAlmanac.Proofs.Lua.Quoted
import ModAlmanac.Proofs.Lua.ReadBack
import ModAlmanac.Proofs.Lua.Reader
import ModAlmanac.Proofs.Lua.Strings
import ModAlmanac.Proofs.Lua.Scalars
import ModAlmanac.Proofs.Lua.Literals
import ModAlmanac.Proofs.Lua.Entries
import ModAlmanac.Proofs.Lua.Tokens
import ModAlmanac.Proofs.OrderedMap
import ModAlmanac.Proofs.Lua.Numerals
import ModAlmanac.Proofs.Lua.LiteralTokens
import ModAlmanac.Proofs.Lua.TableGrammar
import ModAlmanac.Proofs.Source.Declarations
import ModAlmanac.Proofs.Source.Locales
import ModAlmanac.Proofs.Json.Text
import ModAlmanac.Proofs.Json.Number
import ModAlmanac.Proofs.Json.RoundTrip
import ModAlmanac.Proofs.Json.Words
import ModAlmanac.Proofs.Expr.Faults
import ModAlmanac.Proofs.Expr.Paths
import ModAlmanac.Proofs.Expr.Finite
import ModAlmanac.Proofs.Expr.TextKeys
import ModAlmanac.Proofs.Expr.Reading
import ModAlmanac.Proofs.Expr.Occurrences
import ModAlmanac.Proofs.Expr.Parenthesised
import ModAlmanac.Proofs.Expr.Chains
import ModAlmanac.Proofs.Expr.Arithmetic
import ModAlmanac.Proofs.Expr.Commas
import ModAlmanac.Proofs.Expr.Numerals
import ModAlmanac.Proofs.Expr.SignedNumerals
import ModAlmanac.Proofs.Expr.Segments
import ModAlmanac.Proofs.Expr.Lookup
import ModAlmanac.Proofs.Expr.Places
import ModAlmanac.Proofs.Snapshot.Normal
import ModAlmanac.Proofs.Snapshot.Codec
import ModAlmanac.Proofs.Snapshot.Damaged
import ModAlmanac.Proofs.Snapshot.Shapes
import ModAlmanac.Proofs.Snapshot.Linking
import ModAlmanac.Proofs.Snapshot.ImageLookups
import ModAlmanac.Proofs.Snapshot.Compiled
import ModAlmanac.Proofs.Snapshot.Faults
import ModAlmanac.Proofs.Snapshot.Finite
import ModAlmanac.Proofs.Snapshot.Substitutions
import ModAlmanac.Proofs.Cache
import ModAlmanac.Proofs.Repository.FileNames
import ModAlmanac.Proofs.Almanac.Kept
import ModAlmanac.Proofs.Almanac.Stored
import ModAlmanac.Proofs.Almanac.Runs
import ModAlmanac.Proofs.Almanac.Consistency
import ModAlmanac.Proofs.Almanac.Confined
import ModAlmanac.Proofs.Almanac.Backups
import ModAlmanac.Proofs.Almanac.Isolation
import ModAlmanac.Proofs.Almanac.LostImages
import ModAlmanac.Proofs.Site.Addresses
import ModAlmanac.Proofs.Site.Images
import ModAlmanac.Proofs.Site.Snapshots
import ModAlmanac.Proofs.Command.Modes
import ModAlmanac.Proofs.GitHub.Addresses
import ModAlmanac.Proofs.GitHub.Backups
import ModAlmanac.Proofs.GitHub.Listings
import ModAlmanac.Proofs.GitHub.ContentAddresses
import ModAlmanac.Proofs.Lua.Insertions
import ModAlmanac.Proofs.Source.Configs
import ModAlmanac.Proofs.Lua.NumeralFields
import ModAlmanac.Proofs.Source.QuotedFields
import ModAlmanac.Proofs.Source.FieldOrders
import ModAlmanac.Proofs.Source.Merging
import ModAlmanac.Proofs.Source.Unclosed
import ModAlmanac.Proofs.Source.LoneFields
import ModAlmanac.Proofs.Source.QuotedKeys
import ModAlmanac.Proofs.Source.Sheets
import ModAlmanac.Proofs.Lua.Contents
import ModAlmanac.Proofs.Lua.SiblingScan
import ModAlmanac.Proofs.Source.NestedTables
import ModAlmanac.Proofs.Source.DirectEntries
import ModAlmanac.Proofs.Source.ClosedContents
import ModAlmanac.Proofs.Lua.Escapes
