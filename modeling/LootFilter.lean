import LootFilter.Decimal.Read
import LootFilter.Filter.RuleSet
import LootFilter.Item.Json
import LootFilter.Player.Cache
import LootFilter.Proofs.Language.Stack
import LootFilter.Proofs.Item.Family
import LootFilter.Proofs.Session.Conduct
import LootFilter.Proofs.Value.Typed
import LootFilter.Proofs.Language.Operation
import LootFilter.Proofs.Language.Helper
import LootFilter.Proofs.Language.Compile
import LootFilter.Proofs.Language.Bindings
import LootFilter.Proofs.Language.Soundness
import LootFilter.Proofs.Language.Faults
import LootFilter.Proofs.Language.Meaning
import LootFilter.Proofs.Language.Names
import LootFilter.Proofs.Language.Tier
import LootFilter.Proofs.Language.Grammar
import LootFilter.Proofs.Language.Nesting
import LootFilter.Proofs.Decimal.Negation
import LootFilter.Proofs.Language.Written
import LootFilter.Proofs.Language.Reading
import LootFilter.Proofs.Language.Place
import LootFilter.Proofs.Language.RoundTrip
import LootFilter.Proofs.Language.Agreement
import LootFilter.Proofs.Session.Kept
import LootFilter.Proofs.Session.History
import LootFilter.Proofs.Session.Warnings
import LootFilter.Proofs.Filter.Verdict
import LootFilter.Proofs.Script.Seam
import LootFilter.Proofs.Script.Runs
import LootFilter.Proofs.Filter.Composition
import LootFilter.Proofs.Player.Refresh
import LootFilter.Proofs.Player.Ownership
import LootFilter.Proofs.Filter.Diagnostics
import LootFilter.Proofs.Text.Lower
import LootFilter.Proofs.Socket.Seating
import LootFilter.Proofs.Socket.Groups
import LootFilter.Proofs.Language.Query
import LootFilter.Proofs.Language.Unowned
import LootFilter.Proofs.Language.Chain
import LootFilter.Proofs.Stat.Sums
import LootFilter.Proofs.Session.Stats
import LootFilter.Proofs.Session.Replay
import LootFilter.Proofs.Language.Split
import LootFilter.Proofs.Item.Named
import LootFilter.Proofs.Item.NamedStats
import LootFilter.Proofs.Item.WeightedStats
import LootFilter.Proofs.Session.IgnoringCase
import LootFilter.Proofs.Language.Congruence
import LootFilter.Proofs.Language.Unmentioned
import LootFilter.Proofs.Language.Membership
import LootFilter.Proofs.Language.Renaming
import LootFilter.Proofs.Language.Whole
import LootFilter.Proofs.Language.Arithmetic
import LootFilter.Proofs.Text.Blank
import LootFilter.Proofs.Language.Scan
import LootFilter.Proofs.Language.Tokens
import LootFilter.Proofs.Language.Spelling
import LootFilter.Proofs.Language.Literal
import LootFilter.Proofs.Script.Layout
import LootFilter.Proofs.Language.Limit
import LootFilter.Proofs.Language.Position
import LootFilter.Proofs.Language.Sign
import LootFilter.Proofs.Language.Variadic
