import Aetheris.Reconcile
import Aetheris.OrderIdentity
import Aetheris.OrderStore
import Aetheris.OrderEngine
import Aetheris.OrderWrites
import Aetheris.Execution
import Aetheris.OrderHistory
import Aetheris.OrderTotals
import Aetheris.OrderRedelivery
import Aetheris.OrderEvidence
import Aetheris.Settlement
import Aetheris.Lib.Coroutine
import Aetheris.Lib.Interleaving
import Aetheris.TestnetService
import Aetheris.Sweep
import Aetheris.Submission
import Aetheris.Recovery
import Aetheris.CrashWindow
import Aetheris.OrderPath
import Aetheris.Restart
import Aetheris.Acceptance
import Aetheris.Leverage
import Aetheris.LeverageChain
import Aetheris.RiskEngine
import Aetheris.RiskEnvelope
import Aetheris.PaperRecords
import Aetheris.PaperEngine
import Aetheris.PaperConservation
import Aetheris.PaperRefinement
import Aetheris.PaperRuns
import Aetheris.PaperAccounts
import Aetheris.PaperEnvelope
import Aetheris.PaperOutcomes
import Aetheris.PaperViews
import Aetheris.PaperAtomicity
import Aetheris.PaperIndex
import Aetheris.Lib.DecimalText
import Aetheris.CalendarText
import Aetheris.PaperSnapshot
import Aetheris.PaperBrake
import Aetheris.Autonomous
import Aetheris.AutonomousEntries
import Aetheris.PaperFiling
import Aetheris.PaperService
import Aetheris.PaperWorld
import Aetheris.PaperApproval
import Aetheris.PaperSizing
import Aetheris.PaperFunding
import Aetheris.PaperConversion
import Aetheris.PaperDealings
import Aetheris.TestnetRuling
import Aetheris.TestnetCancel
import Aetheris.TestnetDesk
import Aetheris.TestnetLimits
import Aetheris.TestnetSizing
import Aetheris.PaperStops
import Aetheris.PaperDays
import Aetheris.Lib.IndexedLog
import Aetheris.Lib.SoleRun
import Aetheris.TestnetAnswers
import Aetheris.VenueAnswers
import Aetheris.TestnetIncome
import Aetheris.AutonomousTask
import Aetheris.AutonomousCounters
import Aetheris.PaperRestore
import Aetheris.Indicators
import Aetheris.IndicatorCausality
import Aetheris.IndicatorSymmetry
import Aetheris.IndicatorWarmup
import Aetheris.TrendMomentum
import Aetheris.BiasSeries
import Aetheris.BiasSymmetry
import Aetheris.LastBar
import Aetheris.LivePaths
import Aetheris.Intelligence
import Aetheris.Brains
import Aetheris.Advice
import Aetheris.ThesisRecheck
import Aetheris.Optimize
import Aetheris.Regime
import Aetheris.Setup
import Aetheris.Strategies
import Aetheris.OutOfSample
import Aetheris.Backtest
import Aetheris.BacktestLoop
import Aetheris.BacktestCausality
import Aetheris.BacktestSolvency
import Aetheris.BacktestBooks
import Aetheris.IndicatorLibrary
import Aetheris.IndicatorRegistry
import Aetheris.TestnetLeverage
import Aetheris.Lib.Extreme
import Aetheris.PaperExcursions
import Aetheris.IntentIdentity
import Aetheris.MarketModels
import Aetheris.MarketParsing
import Aetheris.ParserErrors
import Aetheris.ExitRules
import Aetheris.BacktestFills
import Aetheris.BacktestLiquidation
import Aetheris.ReportedParameters
import Aetheris.Lib.Smoothing
import Aetheris.IndicatorDivisions
import Aetheris.IndicatorRanges
import Aetheris.IndicatorStart
import Aetheris.CandlePreparation
import Aetheris.Lib.Recency
import Aetheris.MarketCache
import Aetheris.AdviceLadder
import Aetheris.SetupSoundness
import Aetheris.AdviceInputs
import Aetheris.BreakEven
import Aetheris.Lib.Ranking
import Aetheris.Scanner
import Aetheris.ScannerPages
import Aetheris.EvaluationWindows
import Aetheris.Lib.Paired
import Aetheris.OrderMirror
import Aetheris.OrderRefinement
import Aetheris.VenueHistory
import Aetheris.TrackedRecords
import Aetheris.RacingCalls
import Aetheris.RacingRuns
import Aetheris.RacingOutcomes
import Aetheris.Lib.FormEncoding
import Aetheris.Signing
import Aetheris.TestnetRequests
import Aetheris.Lib.Expansion
import Aetheris.TestnetWire
import Aetheris.Lib.Deadline
import Aetheris.Lib.Retry
import Aetheris.ExchangeHttp
import Aetheris.TestnetRetries
import Aetheris.MarketData
import Aetheris.MarketDataRuns
import Aetheris.Lib.OnePass
import Aetheris.BacktestExtremes
import Aetheris.Lifespan
import Aetheris.LifespanRuns
import Aetheris.Lib.Gather
import Aetheris.ScannerGather
import Aetheris.Volatility
import Aetheris.LeverageCandidate
import Aetheris.LeverageBrackets
