import DagMl.Lib.Checked
import DagMl.Lib.Collections
import DagMl.Lib.Binary64
import DagMl.Lib.Framing
import DagMl.Lib.Odometer
import DagMl.Ids
import DagMl.Fold.Basic
import DagMl.Fold.Exclude
import DagMl.Fold.Splitters
import DagMl.Fold.NestedIds
import DagMl.Fold.Balanced
import DagMl.Fold.Fingerprint
import DagMl.Json
import DagMl.Json.Sorted
import DagMl.Json.Text
import DagMl.Dsl.Expansion
import DagMl.Dsl.FanoutClosed
import DagMl.Policy
import DagMl.Relation.Basic
import DagMl.Relation.Lookup
import DagMl.Relation.Folds
import DagMl.Oof.Block
import DagMl.Aggregation.Accumulator
import DagMl.Aggregation.Sample
import DagMl.Oof.Coverage
import DagMl.Oof.Join
import DagMl.Oof.Features
import DagMl.Graph.Order
import DagMl.Selection.Select
import DagMl.Runtime.Registry
import DagMl.Runtime.Seeds
import DagMl.Runtime.StackingOnce
import DagMl.Runtime.StackingInputs
import DagMl.Runtime.Capacity
import DagMl.Metrics.Targets
import DagMl.Runtime.Context
import DagMl.Runtime.Gates
import DagMl.Runtime.ArtifactStore
import DagMl.Conformal.Apply
import DagMl.Metrics.Report
import DagMl.Runtime.OofEvidence
import DagMl.Runtime.Restore
import DagMl.Bundle.AgainstPlan
import DagMl.Bundle.Builders
import DagMl.Hpo.Campaigns
import DagMl.Data.CohortIdentity
import DagMl.Data.SourceAlignment
import DagMl.Metrics.ChainEffect
import DagMl.Conformal.Exact
import DagMl.Generation.Sample
import DagMl.Canonical.Bounded
import DagMl.Aggregation.FusionWithin
import DagMl.Runtime.Paths
import DagMl.Canonical.SelfFingerprint
import DagMl.Runtime.FoldSelection
import DagMl.Runtime.AggregatedOof
import DagMl.Runtime.AvailabilityLaws
import DagMl.Plan.PruneLaws
import DagMl.Runtime.NoInputLost
import DagMl.Hpo.TrialLoopLaws
import DagMl.Runtime.StackingColumnsLaws
import DagMl.Dsl.AliasLaws
import DagMl.Dsl.RangeGenerator
import DagMl.Metrics.ExactScores
import DagMl.Bundle.RequirementKeys
import DagMl.Oof.ResidualLaws
import DagMl.Lib.Failing
import DagMl.Lib.Voting
import DagMl.Metrics.ClassFolds
import DagMl.Metrics.ClassFoldRuns
import DagMl.Metrics.ClassAverages
import DagMl.Metrics.Provider
import DagMl.Metrics.ScoreMaps
import DagMl.Metrics.ScoringEntries
import DagMl.Bundle.PayloadSet
import DagMl.Canonical.Injective
import DagMl.Fold.Observed
import DagMl.Lib.Columns
import DagMl.Lib.Serving
import DagMl.Runtime.CacheInterchange
import DagMl.Selection.Nested
import DagMl.Selection.NestedLaws
import DagMl.Results.Commit
import DagMl.Results.Race
import DagMl.Training.RetainedEvidence
