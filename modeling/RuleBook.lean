import RuleBook.Cache.Basic
import RuleBook.Condition.Evaluation
import RuleBook.Config.Loading
import RuleBook.Data.TextSet
import RuleBook.Database.Connection
import RuleBook.Database.Repository
import RuleBook.Database.RowReader
import RuleBook.Evaluation.Access
import RuleBook.Evaluation.Context
import RuleBook.Evaluation.Pricing
import RuleBook.Evaluation.Result
import RuleBook.Evaluation.Selection
import RuleBook.Json.Printer
import RuleBook.Json.Reader
import RuleBook.Money.Basic
import RuleBook.Number.Double
import RuleBook.Number.Range
import RuleBook.Number.Shortest
import RuleBook.Proofs.Cache.Coherence
import RuleBook.Proofs.Cache.Eviction
import RuleBook.Proofs.Cache.SharedKeys
import RuleBook.Proofs.Cache.Staleness
import RuleBook.Proofs.Condition.ComparisonLaws
import RuleBook.Proofs.Condition.Dependence
import RuleBook.Proofs.Condition.Faults
import RuleBook.Proofs.Condition.Kleene
import RuleBook.Proofs.Condition.Membership
import RuleBook.Proofs.Condition.MissingFacts
import RuleBook.Proofs.Condition.Reasons
import RuleBook.Proofs.Condition.RequiredFacts
import RuleBook.Proofs.Condition.RoundTrip
import RuleBook.Proofs.Condition.WrittenOut
import RuleBook.Proofs.Database.Assembly
import RuleBook.Proofs.Database.Connections
import RuleBook.Proofs.Database.Effects
import RuleBook.Proofs.Database.Joining
import RuleBook.Proofs.Database.Keys
import RuleBook.Proofs.Database.Loading
import RuleBook.Proofs.Database.Records
import RuleBook.Proofs.Database.RoundTrip
import RuleBook.Proofs.Database.TornSnapshots
import RuleBook.Proofs.Database.Transactions
import RuleBook.Proofs.Database.Versions
import RuleBook.Proofs.Evaluation.AcceptedRules
import RuleBook.Proofs.Evaluation.AccessCheck
import RuleBook.Proofs.Evaluation.Answer
import RuleBook.Proofs.Evaluation.Deadline
import RuleBook.Proofs.Evaluation.Diagnostics
import RuleBook.Proofs.Evaluation.Isolation
import RuleBook.Proofs.Evaluation.Matching
import RuleBook.Proofs.Evaluation.PartialPrices
import RuleBook.Proofs.Evaluation.ReportOrder
import RuleBook.Proofs.Evaluation.Verdicts
import RuleBook.Proofs.Json.Forms
import RuleBook.Proofs.Json.Numerals
import RuleBook.Proofs.Json.Shapes
import RuleBook.Proofs.Json.Texts
import RuleBook.Proofs.Json.WireForms
import RuleBook.Proofs.Money.Order
import RuleBook.Proofs.Money.Percentages
import RuleBook.Proofs.Money.Rounding
import RuleBook.Proofs.Money.Sums
import RuleBook.Proofs.Money.Units
import RuleBook.Proofs.Pricing.Adjustment
import RuleBook.Proofs.Pricing.Charges
import RuleBook.Proofs.Pricing.Currency
import RuleBook.Proofs.Pricing.Exclusion
import RuleBook.Proofs.Pricing.Floor
import RuleBook.Proofs.Pricing.LinkOrder
import RuleBook.Proofs.Pricing.Overdraft
import RuleBook.Proofs.Pricing.Overflow
import RuleBook.Proofs.Pricing.Phase
import RuleBook.Proofs.Pricing.Reconciliation
import RuleBook.Proofs.Pricing.Reports
import RuleBook.Proofs.Pricing.RuleOrder
import RuleBook.Proofs.Pricing.Stacking
import RuleBook.Proofs.Rule.Acceptance
import RuleBook.Proofs.Service.Atomicity
import RuleBook.Proofs.Service.DeleteRace
import RuleBook.Proofs.Service.WriteRace
import RuleBook.Proofs.Store.Catalog
import RuleBook.Proofs.Store.Entries
import RuleBook.Proofs.Store.Invalidation
import RuleBook.Proofs.Store.Lifecycle
import RuleBook.Proofs.Store.Replacement
import RuleBook.Proofs.Store.Revision
import RuleBook.Proofs.Store.Writes
import RuleBook.Rule.Audited
import RuleBook.Rule.Basic
import RuleBook.Service.Authoring
import RuleBook.Service.Forms
import RuleBook.Service.Router
import RuleBook.Store.Refresh
import RuleBook.Store.Statistics
import RuleBook.Text.Blank
import RuleBook.Text.MediaType
import RuleBook.Text.Percent
import RuleBook.Text.Quoted
import RuleBook.Text.Sha256
import RuleBook.Time.Instant
