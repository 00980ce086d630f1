import CohortAnalytics.Cache.Session
import CohortAnalytics.Cancellation.Session
import CohortAnalytics.Cohort.Inline
import CohortAnalytics.Experiment.Document
import CohortAnalytics.Main
import CohortAnalytics.Proofs.Audit.Export
import CohortAnalytics.Proofs.Audit.Gate
import CohortAnalytics.Proofs.Audit.Reports
import CohortAnalytics.Proofs.Cache.BoundedMap
import CohortAnalytics.Proofs.Cache.Call
import CohortAnalytics.Proofs.Cache.Commits
import CohortAnalytics.Proofs.Cache.Contents
import CohortAnalytics.Proofs.Cache.Delivery
import CohortAnalytics.Proofs.Cache.Eviction
import CohortAnalytics.Proofs.Cache.Held
import CohortAnalytics.Proofs.Cache.History
import CohortAnalytics.Proofs.Cache.Invalidation
import CohortAnalytics.Proofs.Cache.Key
import CohortAnalytics.Proofs.Cache.Overwrites
import CohortAnalytics.Proofs.Cache.SingleFlight
import CohortAnalytics.Proofs.Cache.Sites
import CohortAnalytics.Proofs.Cache.Soundness
import CohortAnalytics.Proofs.Cache.Standing
import CohortAnalytics.Proofs.Cache.Steps
import CohortAnalytics.Proofs.Cache.Transitions
import CohortAnalytics.Proofs.Cancellation.Registrations
import CohortAnalytics.Proofs.Cohort.Accounting
import CohortAnalytics.Proofs.Cohort.Bound
import CohortAnalytics.Proofs.Cohort.Canonical
import CohortAnalytics.Proofs.Cohort.Compiled
import CohortAnalytics.Proofs.Cohort.IntegerTexts
import CohortAnalytics.Proofs.Cohort.Lexing
import CohortAnalytics.Proofs.Cohort.Like
import CohortAnalytics.Proofs.Cohort.Meaning
import CohortAnalytics.Proofs.Cohort.Reading
import CohortAnalytics.Proofs.Cohort.Rendered
import CohortAnalytics.Proofs.Entries
import CohortAnalytics.Proofs.Experiment.Assignment
import CohortAnalytics.Proofs.Experiment.Buckets
import CohortAnalytics.Proofs.Experiment.Rollout
import CohortAnalytics.Proofs.Experiment.Split
import CohortAnalytics.Proofs.Json.Canonical
import CohortAnalytics.Proofs.Json.Order
import CohortAnalytics.Proofs.Json.Quoting
import CohortAnalytics.Proofs.Json.Readability
import CohortAnalytics.Proofs.Number.Compare
import CohortAnalytics.Proofs.Number.Double
import CohortAnalytics.Proofs.Number.Faithful
import CohortAnalytics.Proofs.Number.Finite
import CohortAnalytics.Proofs.Number.Integers
import CohortAnalytics.Proofs.Number.Nearest
import CohortAnalytics.Proofs.Number.Negation
import CohortAnalytics.Proofs.Number.Operations
import CohortAnalytics.Proofs.Number.Order
import CohortAnalytics.Proofs.Number.Proper
import CohortAnalytics.Proofs.Number.ReadBack
import CohortAnalytics.Proofs.Number.Rounding
import CohortAnalytics.Proofs.Number.Shortest
import CohortAnalytics.Proofs.Query.Alignment
import CohortAnalytics.Proofs.Query.Answers
import CohortAnalytics.Proofs.Query.Collected
import CohortAnalytics.Proofs.Query.Failing
import CohortAnalytics.Proofs.Query.Filters
import CohortAnalytics.Proofs.Query.Groups
import CohortAnalytics.Proofs.Query.Layout
import CohortAnalytics.Proofs.Query.Narrowing
import CohortAnalytics.Proofs.Query.RageClicks
import CohortAnalytics.Proofs.Query.Sent
import CohortAnalytics.Proofs.Query.SiteScope
import CohortAnalytics.Proofs.Query.Written
import CohortAnalytics.Proofs.Results
import CohortAnalytics.Proofs.Service.Attribution
import CohortAnalytics.Proofs.Service.Coherence
import CohortAnalytics.Proofs.Service.CohortAnswers
import CohortAnalytics.Proofs.Service.CohortTallies
import CohortAnalytics.Proofs.Service.Edits
import CohortAnalytics.Proofs.Service.ExperimentAnswers
import CohortAnalytics.Proofs.Service.FailedAttempts
import CohortAnalytics.Proofs.Service.Failing
import CohortAnalytics.Proofs.Service.ForeignGoals
import CohortAnalytics.Proofs.Service.Keys
import CohortAnalytics.Proofs.Service.Labels
import CohortAnalytics.Proofs.Service.Ownership
import CohortAnalytics.Proofs.Service.Refusals
import CohortAnalytics.Proofs.Service.RuleEdits
import CohortAnalytics.Proofs.Service.Sent
import CohortAnalytics.Proofs.Service.ShownCohorts
import CohortAnalytics.Proofs.Service.Subjects
import CohortAnalytics.Proofs.Service.Transparency
import CohortAnalytics.Proofs.Service.VariantAnswers
import CohortAnalytics.Proofs.Service.Verdicts
import CohortAnalytics.Proofs.Service.Versions
import CohortAnalytics.Proofs.Simulation.Counts
import CohortAnalytics.Proofs.Simulation.Session
import CohortAnalytics.Proofs.Simulation.Shape
import CohortAnalytics.Proofs.Simulation.Traffic
import CohortAnalytics.Proofs.Statistics.Bounds
import CohortAnalytics.Proofs.Statistics.Curve
import CohortAnalytics.Proofs.Statistics.Outcome
import CohortAnalytics.Proofs.Statistics.Planning
import CohortAnalytics.Proofs.Statistics.Ranking
import CohortAnalytics.Proofs.Statistics.Reported
import CohortAnalytics.Proofs.Statistics.Symmetry
import CohortAnalytics.Proofs.Time.Calendar
import CohortAnalytics.Proofs.Time.Conversion
import CohortAnalytics.Proofs.Time.ReadBack
import CohortAnalytics.Proofs.Time.Renderings
import CohortAnalytics.Proofs.Time.Resolution
import CohortAnalytics.Proofs.Time.Written
import CohortAnalytics.Proofs.Warehouse.Cleanup
import CohortAnalytics.Proofs.Warehouse.Events
import CohortAnalytics.Proofs.Warehouse.Execution
import CohortAnalytics.Proofs.Warehouse.Interrupts
import CohortAnalytics.Proofs.Warehouse.Loading
import CohortAnalytics.Proofs.Warehouse.Rows
import CohortAnalytics.Query.Builder
import CohortAnalytics.Query.Written
import CohortAnalytics.Simulation.Document
import CohortAnalytics.Warehouse.Execution
