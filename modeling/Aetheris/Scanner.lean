import Mathlib.Data.String.Basic
import Mathlib.Data.Sum.Order
import Aetheris.Lib.Ranking
import Aetheris.Brains
import Aetheris.ScannerMetrics

namespace Aetheris.Scanner

open Lib Ranking Money Clock Enums OrderIdentity PaperRecords
open MarketModels (CandleSeries Symbol Ticker SymbolStatus ContractType)
open Setup (TradeSetup DataContext)
open RiskEngine (orText)

section Domain

variable {α : Type}

/-- An answer with its provenance: a value exactly where its status is OK. -/
structure Observation (α : Type) where
  value : Option α
  status : DataStatus
  source : String
  eventTs : Option Timestamp
  receivedTs : Timestamp
  detail : Option String
  value_status : value.isSome = decide (status = .ok)

/-- Seconds from the event at the exchange to the receipt of it. -/
def Observation.ageSeconds (observation : Observation α) : Option Decimal :=
  observation.eventTs.map fun eventTs => totalSeconds (observation.receivedTs - eventTs)

/-- Faults of the exchange, by what the caller should do about them. -/
inductive ExchangeError
  | upstreamUnavailable | timeout | rateLimited | unavailable | invalidResponse
  deriving DecidableEq, Repr

def ExchangeError.code : ExchangeError → String
  | upstreamUnavailable => "UPSTREAM_UNAVAILABLE"
  | timeout => "EXCHANGE_TIMEOUT"
  | rateLimited => "EXCHANGE_RATE_LIMITED"
  | unavailable => "EXCHANGE_UNAVAILABLE"
  | invalidResponse => "EXCHANGE_INVALID_RESPONSE"

/-- What the market answers, whenever it is asked. -/
structure MarketDataPort where
  getSymbols : Except ExchangeError (List Symbol)
  getAllTickers : Except ExchangeError (Observation (List Ticker))
  getKlines : String → Timeframe → Nat → Except ExchangeError (Observation CandleSeries)

/-- Why what is derived from candles is or is not present. -/
inductive MetricStatus
  | calculated | insufficientData | unavailable | notRequested
  deriving DecidableEq, Repr

/-- How far an ordering reaches. -/
inductive RankingScope
  | fullUniverse | liquidityPool | strategyPool
  deriving DecidableEq, Repr

/-- One instrument as the scanner sees it. -/
structure ScannerRow where
  symbol : String
  baseAsset : String
  quoteAsset : String
  contractType : ContractType
  status : SymbolStatus
  tickerStatus : DataStatus
  tickerDetail : Option String := none
  lastPrice : Option Decimal := none
  bidPrice : Option Decimal := none
  askPrice : Option Decimal := none
  priceChange24h : Option Decimal := none
  priceChangePercent24h : Option Decimal := none
  high24h : Option Decimal := none
  low24h : Option Decimal := none
  volume24h : Option Decimal := none
  quoteVolume24h : Option Decimal := none
  metricsStatus : MetricStatus := .notRequested
  metricsDetail : Option String := none
  metrics : Option ScannerMetrics := none
  opportunity : Option OpportunityScore := none
  setupStatus : MetricStatus := .notRequested
  setupDetail : Option String := none
  setup : Option TradeSetup := none

structure ScannerPage where
  rows : List ScannerRow
  page : Nat
  pageSize : Nat
  totalRows : Nat
  universeSize : Nat
  rankingScope : RankingScope
  candidatePoolSize : Option Nat
  setupPoolSize : Option Nat
  sortBy : String
  direction : String
  tickerSource : String
  tickerStatus : DataStatus
  tickerEventTs : Option String
  tickerAgeSeconds : Option Decimal
  scannedAt : String

/-- Bounds on what one scan may ask for. -/
structure ScannerSettings where
  candidatePoolSize : Nat := 60
  maxMetricSymbols : Nat := 60
  candleLimit : Nat := 60
  setupPoolSize : Nat := 20
  setupCandleLimit : Nat := 200

end Domain

section Queries

inductive SortField
  | symbol | lastPrice | priceChangePercent24h | volume24h | quoteVolume24h
  | volatilityPercent | momentumPercent | atrPercent | relativeVolume | trendConsistency | opportunityScore
  | setupScore
  deriving DecidableEq, Repr

namespace SortField

def name : SortField → String
  | symbol => "symbol"
  | lastPrice => "last_price"
  | priceChangePercent24h => "price_change_percent_24h"
  | volume24h => "volume_24h"
  | quoteVolume24h => "quote_volume_24h"
  | volatilityPercent => "volatility_percent"
  | momentumPercent => "momentum_percent"
  | atrPercent => "atr_percent"
  | relativeVolume => "relative_volume"
  | trendConsistency => "trend_consistency"
  | opportunityScore => "opportunity_score"
  | setupScore => "setup_score"

/-- Fields that need candles, and so a bounded pool. -/
def isMetric : SortField → Bool
  | volatilityPercent | momentumPercent | atrPercent | relativeVolume | trendConsistency | opportunityScore => true
  | _ => false

/-- What a row is ordered by: a text, or a number. -/
def accessor : SortField → ScannerRow → Option (String ⊕ₗ Decimal)
  | symbol, r => some (Sum.inlₗ r.symbol)
  | lastPrice, r => r.lastPrice.map Sum.inrₗ
  | priceChangePercent24h, r => r.priceChangePercent24h.map Sum.inrₗ
  | volume24h, r => r.volume24h.map Sum.inrₗ
  | quoteVolume24h, r => r.quoteVolume24h.map Sum.inrₗ
  | volatilityPercent, r => (r.metrics.map ScannerMetrics.volatilityPercent).map Sum.inrₗ
  | momentumPercent, r => (r.metrics.map ScannerMetrics.momentumPercent).map Sum.inrₗ
  | atrPercent, r => (r.metrics.map ScannerMetrics.atrPercent).map Sum.inrₗ
  | relativeVolume, r => (r.metrics.bind ScannerMetrics.relativeVolume).map Sum.inrₗ
  | trendConsistency, r => (r.metrics.map ScannerMetrics.trendConsistency).map Sum.inrₗ
  | opportunityScore, r => (r.opportunity.map OpportunityScore.score).map Sum.inrₗ
  | setupScore, r => ((r.setup.bind TradeSetup.score).map Setup.SetupScore.value).map Sum.inrₗ

end SortField

/-- Filters applied before ranking, all optional. -/
structure ScanFilters where
  search : Option String := none
  quoteAsset : Option String := none
  minQuoteVolume : Option Decimal := none
  minPriceChangePercent : Option Decimal := none
  maxPriceChangePercent : Option Decimal := none
  minVolatilityPercent : Option Decimal := none
  minRelativeVolume : Option Decimal := none
  trend : Option TrendDirection := none

def ScanFilters.needsMetrics (filters : ScanFilters) : Bool :=
  filters.minVolatilityPercent.isSome || filters.minRelativeVolume.isSome || filters.trend.isSome

/-- A validated request: its pages are counted from one, and hold a row at least. -/
structure ScanQuery where
  sortBy : SortField := .quoteVolume24h
  descending : Bool := true
  page : Nat
  pageSize : Nat
  timeframe : Timeframe := .h1
  includeMetrics : Bool := false
  includeSetup : Bool := false
  filters : ScanFilters := {}
  page_pos : 1 ≤ page
  pageSize_pos : 1 ≤ pageSize

def ScanQuery.needsSetups (query : ScanQuery) : Bool := query.includeSetup || decide (query.sortBy = .setupScore)

def ScanQuery.needsPool (query : ScanQuery) : Bool := query.sortBy.isMetric || query.filters.needsMetrics

/-- Where every row was ranked, statistics are an extra for those that are shown. -/
def ScanQuery.enriches (query : ScanQuery) : Bool := query.includeMetrics && !query.needsPool && !query.needsSetups

end Queries

section Ordering

/-- A value that is known to be a number. -/
def asDecimal (value : Option (String ⊕ₗ Decimal)) : Decimal :=
  match value.map ofLex with
  | some (.inr value) => value
  | _ => 0

/-- Rows whose value is unknown are kept out of the ranking, and follow it. -/
def sort (rows : List ScannerRow) (field : SortField) (descending : Bool) : List ScannerRow :=
  let present := rows.filter fun r => (field.accessor r).isSome
  let absent := rows.filter fun r => (field.accessor r).isNone
  let ranked :=
    if field = .symbol then Ranking.sortBy descending ScannerRow.symbol present
    else Ranking.sortBy descending (fun r => asDecimal (field.accessor r)) (Ranking.sortBy false ScannerRow.symbol present)
  ranked ++ Ranking.sortBy false ScannerRow.symbol absent

/-- `rows[start : start + page_size]`. -/
def paginate (rows : List ScannerRow) (page pageSize : Nat) : List ScannerRow :=
  (rows.drop ((page - 1) * pageSize)).take pageSize

end Ordering

section Filters

variable [Runtime]

/-- A text that was given, and is not empty. -/
def filled (text : Option String) : Option String := text.filter fun text => text ≠ ""

/-- Filters that need no candles. A row without the value that is tested is excluded. -/
def passesTickerFilters (filters : ScanFilters) (row : ScannerRow) : Bool :=
  (filled filters.search).all (fun search =>
    let needle := (Runtime.upper search).toList
    decide (needle <:+: row.symbol.toList) || decide (needle <+: row.baseAsset.toList)) &&
  (filled filters.quoteAsset).all (fun quoteAsset => row.quoteAsset = quoteAsset) &&
  filters.minQuoteVolume.all (fun least => row.quoteVolume24h.any fun volume => least ≤ volume) &&
  filters.minPriceChangePercent.all (fun least => row.priceChangePercent24h.any fun change => least ≤ change) &&
  filters.maxPriceChangePercent.all (fun most => row.priceChangePercent24h.any fun change => change ≤ most)

omit [Runtime] in
def passesMetricFilters (filters : ScanFilters) (row : ScannerRow) : Bool :=
  row.metrics.any fun metrics =>
    filters.minVolatilityPercent.all (fun least => least ≤ metrics.volatilityPercent) &&
    filters.minRelativeVolume.all (fun least => metrics.relativeVolume.any fun ratio => least ≤ ratio) &&
    filters.trend.all fun trend => metrics.trend = trend

end Filters

/-- Builds scanner pages from what the market answers. -/
structure ScannerService where
  exchange : MarketDataPort
  settings : ScannerSettings
  maxTickerAgeSeconds : Decimal

/-- When a scan read its clock: for its rows, and again for what it attached to them. -/
structure Instants where
  built : Timestamp
  attached : Timestamp

/-- The rows of a ranking, and what it reaches. -/
structure RankedRows where
  rows : List ScannerRow
  poolSize : Option Nat
  setupPool : Option Nat
  scope : RankingScope

namespace ScannerService

variable (service : ScannerService)

section Rows

/-- The venue's metadata merged with the instrument's own ticker, if it has a fresh one. -/
def buildRow (symbol : Symbol) (ticker : Option Ticker) (observation : Observation (List Ticker)) (now : Timestamp) :
    ScannerRow :=
  let row : ScannerRow := {
    symbol := symbol.symbol
    baseAsset := symbol.baseAsset
    quoteAsset := symbol.quoteAsset
    contractType := symbol.contractType
    status := symbol.status
    tickerStatus := .ok }
  match ticker with
  | none =>
      { row with
        tickerStatus := if observation.status = .ok then .unavailable else observation.status
        tickerDetail := some (orText observation.detail "No ticker for this symbol in the snapshot") }
  | some ticker =>
      match (ticker.eventTime.map fun eventTime => totalSeconds (now - eventTime)).filter
          fun age => service.maxTickerAgeSeconds < age with
      | some age =>
          let shown := fixed 0 age
          { row with
            tickerStatus := .stale
            tickerDetail := some s!"Last trade for this instrument was {shown}s ago" }
      | none =>
          { row with
            lastPrice := some ticker.lastPrice
            bidPrice := ticker.bidPrice
            askPrice := ticker.askPrice
            priceChange24h := ticker.priceChange24h
            priceChangePercent24h := ticker.priceChangePercent24h
            high24h := ticker.high24h
            low24h := ticker.low24h
            volume24h := ticker.volume24h
            quoteVolume24h := ticker.quoteVolume24h }

def buildRows (symbols : List Symbol) (observation : Observation (List Ticker)) (now : Timestamp) : List ScannerRow :=
  let tickersBySymbol : Dict String Ticker :=
    (observation.value.getD []).foldl (fun tickers ticker => tickers.set ticker.symbol ticker) .empty
  symbols.map fun symbol => service.buildRow symbol (tickersBySymbol.get? symbol.symbol) observation now

/-- The candles of a row, or the reason that there are none. -/
def klines (symbol : String) (timeframe : Timeframe) (limit : Nat) : Except String (Observation CandleSeries × CandleSeries) :=
  match service.exchange.getKlines symbol timeframe limit with
  | .error exc =>
      let code := exc.code
      .error s!"{code}: candles could not be retrieved"
  | .ok observation =>
      let status := observation.status.value
      match observation.value with
      | none => .error (orText observation.detail s!"Candles unavailable ({status})")
      | some series => .ok (observation, series)

def withMetrics (series : CandleSeries) (now : Timestamp) (row : ScannerRow) : ScannerRow :=
  match computeMetrics series now defaultMomentumLookback with
  | none =>
      { row with
        metricsStatus := .insufficientData
        metricsDetail := some "Not enough closed candles to compute statistics" }
  | some metrics =>
      { row with
        metricsStatus := .calculated
        metrics := some metrics
        opportunity := scoreOpportunity metrics }

/-- A failure of one instrument degrades its row, and never fails the scan. -/
def enrichMetrics (timeframe : Timeframe) (now : Timestamp) (row : ScannerRow) : ScannerRow :=
  match service.klines row.symbol timeframe service.settings.candleLimit with
  | .error reason => { row with metricsStatus := .unavailable, metricsDetail := some reason }
  | .ok (_, series) => withMetrics series now row

/-- Statistics and setup from one observation of a longer window. -/
def enrichSetup (timeframe : Timeframe) (now : Timestamp) (row : ScannerRow) : ScannerRow :=
  match service.klines row.symbol timeframe service.settings.setupCandleLimit with
  | .error reason =>
      { row with
        metricsStatus := .unavailable
        metricsDetail := some reason
        setupStatus := .unavailable
        setupDetail := some reason }
  | .ok (observation, series) =>
      let context : DataContext := {
        symbol := row.symbol
        timeframe := timeframe
        source := observation.source
        dataStatus := observation.status.value
        ageSeconds := observation.ageSeconds }
      { withMetrics series now row with
        setup := some (Setup.evaluateSetup (series.candles.map MarketModels.Candle.toCandle) context now
          Brains.defaultTrendMomentumParams Setup.defaultSetupParams)
        setupStatus := .calculated }

/-- Rows beyond the cap are kept as they are. -/
def attachMetrics (rows : List ScannerRow) (timeframe : Timeframe) (now : Timestamp) : List ScannerRow :=
  (rows.take service.settings.maxMetricSymbols).map (service.enrichMetrics timeframe now) ++
    rows.drop service.settings.maxMetricSymbols

def attachSetups (rows : List ScannerRow) (timeframe : Timeframe) (now : Timestamp) : List ScannerRow :=
  rows.map (service.enrichSetup timeframe now)

end Rows

section Scan

/-- The most liquid rows are attached what the query needs, filtered by it and ranked. -/
def rankPool (rows : List ScannerRow) (query : ScanQuery) (poolSize : Nat)
    (attach : List ScannerRow → List ScannerRow) : List ScannerRow × Nat :=
  let candidates := (sort rows .quoteVolume24h true).take poolSize
  let scored := attach candidates
  let scored := if query.filters.needsMetrics then scored.filter (passesMetricFilters query.filters) else scored
  (sort scored query.sortBy query.descending, candidates.length)

def rankWithMetrics (rows : List ScannerRow) (query : ScanQuery) (now : Timestamp) : List ScannerRow × Nat :=
  rankPool rows query (min service.settings.candidatePoolSize service.settings.maxMetricSymbols)
    fun candidates => service.attachMetrics candidates query.timeframe now

def rankWithSetups (rows : List ScannerRow) (query : ScanQuery) (now : Timestamp) : List ScannerRow × Nat :=
  rankPool rows query (min service.settings.setupPoolSize service.settings.maxMetricSymbols)
    fun candidates => service.attachSetups candidates query.timeframe now

/-- Setup scoring subsumes the statistics, and both the plain ordering. -/
def rank (rows : List ScannerRow) (query : ScanQuery) (now : Timestamp) : RankedRows :=
  if query.needsSetups then
    let (rows, setupPool) := service.rankWithSetups rows query now
    ⟨rows, some setupPool, some setupPool, .strategyPool⟩
  else if query.needsPool then
    let (rows, poolSize) := service.rankWithMetrics rows query now
    ⟨rows, some poolSize, none, .liquidityPool⟩
  else ⟨sort rows query.sortBy query.descending, none, none, .fullUniverse⟩

variable [Runtime]

/-- The page of a query, once the market has answered. -/
def pageOf (started : Timestamp) (instants : Instants) (query : ScanQuery) (symbols : List Symbol)
    (observation : Observation (List Ticker)) : ScannerPage :=
  let rows := (service.buildRows symbols observation instants.built).filter (passesTickerFilters query.filters)
  let ranked := service.rank rows query instants.attached
  let pageRows := paginate ranked.rows query.page query.pageSize
  { rows := if query.enriches then service.attachMetrics pageRows query.timeframe instants.attached else pageRows
    page := query.page
    pageSize := query.pageSize
    totalRows := ranked.rows.length
    universeSize := symbols.length
    rankingScope := ranked.scope
    candidatePoolSize := ranked.poolSize
    setupPoolSize := ranked.setupPool
    sortBy := query.sortBy.name
    direction := if query.descending then "desc" else "asc"
    tickerSource := observation.source
    tickerStatus := observation.status
    tickerEventTs := observation.eventTs.map isoformat
    tickerAgeSeconds := observation.ageSeconds
    scannedAt := isoformat started }

def scan (started : Timestamp) (instants : Instants) (query : ScanQuery) : Except ExchangeError ScannerPage := do
  let symbols ← service.exchange.getSymbols
  let observation ← service.exchange.getAllTickers
  return service.pageOf started instants query symbols observation

end Scan

end ScannerService

end Aetheris.Scanner
