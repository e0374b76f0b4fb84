import EntityGraph.Engine
import EntityGraph.Model.Build
import EntityGraph.Schema.Declaration
import EntityGraph.Proofs.Statement.Truth
import EntityGraph.Proofs.Window.Keyset
import EntityGraph.Proofs.Number.Decimal
import EntityGraph.Proofs.Path
import EntityGraph.Proofs.Outcome
import EntityGraph.Proofs.Statement.Answer
import EntityGraph.Proofs.Keyed
import EntityGraph.Proofs.Schema.Constraints
import EntityGraph.Proofs.Model.Build
import EntityGraph.Proofs.Draft.Growth
import EntityGraph.Proofs.Model.Basic
import EntityGraph.Proofs.Draft.Levels
import EntityGraph.Proofs.Draft.Joined
import EntityGraph.Proofs.Draft.Combined
import EntityGraph.Proofs.Draft.References
import EntityGraph.Proofs.Draft.Inner
import EntityGraph.Proofs.FirstSeen
import EntityGraph.Proofs.Tree.Grouping
import EntityGraph.Proofs.Tree.Layout
import EntityGraph.Proofs.Draft.Columns
import EntityGraph.Proofs.Draft.Resolve
import EntityGraph.Proofs.Draft.Ways
import EntityGraph.Proofs.Tree.Presented
import EntityGraph.Proofs.Plan.Drafted
import EntityGraph.Proofs.Tree.Reading
import EntityGraph.Proofs.Tree.Standing
import EntityGraph.Proofs.Tree.Shown
import EntityGraph.Proofs.Tree.Nested
import EntityGraph.Proofs.Tree.Nodes
import EntityGraph.Proofs.Plan.Answered
import EntityGraph.Proofs.Tree.Records
import EntityGraph.Proofs.Plan.Compiled
import EntityGraph.Proofs.Plan.Dropped
import EntityGraph.Proofs.Window.Listed
import EntityGraph.Proofs.Tree.Readable
import EntityGraph.Proofs.Plan.Listing
import EntityGraph.Proofs.Plan.Pages
import EntityGraph.Proofs.Plan.Windows
import EntityGraph.Proofs.Json.Numerals
import EntityGraph.Proofs.Json.Scanned
import EntityGraph.Proofs.Text.Base64
import EntityGraph.Proofs.Json.RoundTrip
import EntityGraph.Proofs.Window.Walk
import EntityGraph.Proofs.Plan.Walks
import EntityGraph.Proofs.Json.Equality
import EntityGraph.Proofs.Window.Thinned
import EntityGraph.Proofs.Plan.Narrowed
import EntityGraph.Proofs.Plan.CrossOrder
import EntityGraph.Proofs.Tree.Places
import EntityGraph.Proofs.Tree.Visited
import EntityGraph.Proofs.Tree.Carried
import EntityGraph.Proofs.Plan.Elided
import EntityGraph.Proofs.Draft.Aliases
import EntityGraph.Proofs.Plan.Denoted
import EntityGraph.Proofs.Plan.Routed
import EntityGraph.Proofs.Statement.Lexemes
import EntityGraph.Proofs.Statement.Rendered
import EntityGraph.Proofs.Tree.Shaped
import EntityGraph.Proofs.Plan.Invalid
import EntityGraph.Proofs.Engine
import EntityGraph.Proofs.Window.Around
import EntityGraph.Proofs.Plan.PageInfo
import EntityGraph.Proofs.Model.Consistent
import EntityGraph.Proofs.Schema.Sound
import EntityGraph.Proofs.Tree.Single
import EntityGraph.Proofs.Plan.Cardinalities
import EntityGraph.Proofs.Draft.Crossings
import EntityGraph.Proofs.Plan.Scoped
import EntityGraph.Proofs.Draft.Repeated
import EntityGraph.Proofs.Plan.Repeated
import EntityGraph.Proofs.Tree.Forest
import EntityGraph.Proofs.Tree.Fanned
import EntityGraph.Proofs.Tree.Placed
import EntityGraph.Proofs.Plan.FannedOut
import EntityGraph.Proofs.Json.Reals
import EntityGraph.Proofs.Window.CursorNulls
import EntityGraph.Proofs.Number.Rounding
import EntityGraph.Proofs.Number.Shortest
import EntityGraph.Proofs.Tree.Clashes
import EntityGraph.Proofs.Engine.Ambiguity
import EntityGraph.Proofs.Tree.Tiers
import EntityGraph.Proofs.Plan.LeftOut
import EntityGraph.Proofs.Plan.Lookups
import EntityGraph.Proofs.Schema.BothEnds
import EntityGraph.Proofs.Schema.SameKey
import EntityGraph.Proofs.Statement.Tokens
import EntityGraph.Proofs.Statement.Search
import EntityGraph.Proofs.Statement.Spaced
import EntityGraph.Proofs.Statement.Filters
import EntityGraph.Proofs.Plan.Filled
import EntityGraph.Proofs.Plan.Membership
import EntityGraph.Proofs.Scalar.Canonical
import EntityGraph.Proofs.Plan.Resent
import EntityGraph.Proofs.Json.Depth
import EntityGraph.Proofs.Scalar.Documents
import EntityGraph.Proofs.Scalar.Timestamp
import EntityGraph.Proofs.Plan.Dates
import EntityGraph.Proofs.Draft.Spellings
import EntityGraph.Proofs.Plan.TieBreak
import EntityGraph.Proofs.Plan.Probe
import EntityGraph.Proofs.Tree.Worklist
import EntityGraph.Proofs.Naming.CommonPrefix
