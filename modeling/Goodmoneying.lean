import Goodmoneying.Analysis.NoLookAhead
import Goodmoneying.Analysis.PositionAccounting
import Goodmoneying.Analysis.QualityEventLog
import Goodmoneying.Analysis.StatisticResume
import Goodmoneying.Analysis.DatasetCanonicity
import Goodmoneying.Analysis.AnalysisStreamConvergence
import Goodmoneying.Analysis.AnalysisSubscriptionGate
import Goodmoneying.Analysis.DatasetPublicationSafety
import Goodmoneying.Analysis.MicrostructureProjection
import Goodmoneying.Analysis.KillSwitchSafety
import Goodmoneying.Analysis.LedgerAgreement
import Goodmoneying.Analysis.BackfillSafety
import Goodmoneying.Analysis.GatewayRateLimiter
import Goodmoneying.Analysis.RollupRanges
import Goodmoneying.Analysis.ExpectedBucketCounts
import Goodmoneying.Analysis.ParticipationCap
import Goodmoneying.Analysis.EquityAttribution
import Goodmoneying.Analysis.DecimalFaithfulness
import Goodmoneying.Analysis.RetryBudgets
import Goodmoneying.Analysis.SourceReceipts
import Goodmoneying.Analysis.WebSocketRateLimiter
import Goodmoneying.Analysis.CandlePaging
import Goodmoneying.Analysis.BackfillRanges
import Goodmoneying.Analysis.OrderIdentifiers
import Goodmoneying.Analysis.OrderQueryStrings
import Goodmoneying.Analysis.FeeDistribution
import Goodmoneying.Analysis.SlotQualities
import Goodmoneying.Analysis.IndicatorRuns
import Goodmoneying.Analysis.MicrostructureCoherence
import Goodmoneying.Analysis.OperatorStops
import Goodmoneying.Analysis.SanitizedTraces
import Goodmoneying.Analysis.QueryStringRoundTrip
import Goodmoneying.Analysis.DatasetOverlaps
import Goodmoneying.Analysis.CoverageStatuses
import Goodmoneying.Analysis.StatusStepFunction
import Goodmoneying.Analysis.StrategyGraphIdentity
import Goodmoneying.Analysis.CandleSeriesRuns
import Goodmoneying.Analysis.PageCoverage
import Goodmoneying.Analysis.BucketTiling
import Goodmoneying.Analysis.StrategyPublication
import Goodmoneying.Analysis.StreamCursors
