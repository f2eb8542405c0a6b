import Aetheris.ExchangeHttp
import Aetheris.Lib.Interleaving
import Aetheris.MarketCache
import Aetheris.MarketParsing
import Aetheris.Scanner

namespace Aetheris.MarketData

open Lib Coroutine Money Clock PaperRecords MarketModels MarketParsing MarketCache OrderIdentity Signing
open Enums (DataStatus)
open Scanner (Observation)
open ExchangeHttp (ExchangeError)
open VenueAnswers (Json)

def exchangeName : String := "binance-futures-usdm"

def sourceRest : String := "binance-futures-usdm:rest"

def exchangeInfoPath : String := "/fapi/v1/exchangeInfo"

def ticker24h : String := "/fapi/v1/ticker/24hr"

def bookTicker : String := "/fapi/v1/ticker/bookTicker"

def klinesPath : String := "/fapi/v1/klines"

def exchangeInfoKey : String := "exchange-info"

def allTickersKey : String := "all-tickers"

inductive ConnectionStatus
  | connected | degraded | unavailable | unknown
  deriving DecidableEq, Repr

/-- What happened upstream: the time of the latest success and of the latest failure. -/
structure ConnectionTracker where
  lastSuccess : Option Timestamp := none
  lastFailure : Option Timestamp := none
  lastErrorCode : Option String := none

namespace ConnectionTracker

def recordSuccess (tracker : ConnectionTracker) (now : Timestamp) : ConnectionTracker :=
  { tracker with lastSuccess := some now }

def recordFailure (tracker : ConnectionTracker) (errorCode : String) (now : Timestamp) : ConnectionTracker :=
  { tracker with lastFailure := some now, lastErrorCode := some errorCode }

def status (tracker : ConnectionTracker) : ConnectionStatus :=
  match tracker.lastSuccess with
  | none => if tracker.lastFailure.isSome then .unavailable else .unknown
  | some lastSuccess =>
      if (tracker.lastFailure.any fun lastFailure => lastSuccess < lastFailure) then .degraded else .connected

variable {tracker : ConnectionTracker}

theorem status_unknown_iff : tracker.status = .unknown ↔ tracker.lastSuccess = none ∧ tracker.lastFailure = none := by
  rw [status]
  cases tracker.lastSuccess with
  | none => cases tracker.lastFailure <;> simp
  | some t =>
      dsimp only
      split <;> simp

theorem status_unavailable_iff :
    tracker.status = .unavailable ↔ tracker.lastSuccess = none ∧ tracker.lastFailure.isSome := by
  rw [status]
  cases tracker.lastSuccess with
  | none => cases tracker.lastFailure <;> simp
  | some t =>
      dsimp only
      split <;> simp

theorem status_of_success {lastSuccess : Timestamp} (h : tracker.lastSuccess = some lastSuccess) :
    tracker.status =
      if tracker.lastFailure.any (fun lastFailure => lastSuccess < lastFailure) then .degraded else .connected := by
  rw [status, h]

end ConnectionTracker

structure MarketSettings where
  exchangeInfoTtlSeconds : Decimal := 300
  tickerTtlSeconds : Decimal := 3
  klinesTtlSeconds : Decimal := 10
  klinesCacheMaxEntries : Nat := 16
  tickerCacheMaxEntries : Nat := 64
  maxKlinesLimit : Nat := 1500
  maxTickerAgeSeconds : Decimal := 30
  maxCandleAgeMultiple : Decimal := 5 / 2
  exchangeInfoTtl_pos : 0 < exchangeInfoTtlSeconds
  tickerTtl_pos : 0 < tickerTtlSeconds
  klinesTtl_pos : 0 < klinesTtlSeconds
  one_le_klinesCache : 1 ≤ klinesCacheMaxEntries
  one_le_tickerCache : 1 ≤ tickerCacheMaxEntries

/-- The caches of the adapter, by what they hold. -/
inductive Slot : Type → Type
  | exchangeInfo : Slot ExchangeInfo
  | ticker : Slot Ticker
  | klines : Slot CandleSeries
  | allTickers : Slot (List Ticker)

structure Caches where
  exchangeInfo : TTLCache ExchangeInfo Decimal
  ticker : TTLCache Ticker Decimal
  klines : TTLCache CandleSeries Decimal
  allTickers : TTLCache (List Ticker) Decimal

namespace Caches

variable {V : Type}

def select : Slot V → Caches → TTLCache V Decimal
  | .exchangeInfo, caches => caches.exchangeInfo
  | .ticker, caches => caches.ticker
  | .klines, caches => caches.klines
  | .allTickers, caches => caches.allTickers

theorem one_le_single : 1 ≤ 1 := le_rfl

/-- There is one universe and one snapshot of the whole market at a time. -/
def new (settings : MarketSettings) : Caches where
  exchangeInfo := ⟨settings.exchangeInfoTtlSeconds, 1, .empty, 0, 0, settings.exchangeInfoTtl_pos, one_le_single⟩
  ticker := ⟨settings.tickerTtlSeconds, settings.tickerCacheMaxEntries, .empty, 0, 0, settings.tickerTtl_pos,
    settings.one_le_tickerCache⟩
  klines := ⟨settings.klinesTtlSeconds, settings.klinesCacheMaxEntries, .empty, 0, 0, settings.klinesTtl_pos,
    settings.one_le_klinesCache⟩
  allTickers := ⟨settings.tickerTtlSeconds, 1, .empty, 0, 0, settings.tickerTtl_pos, one_le_single⟩

def put : Slot V → TTLCache V Decimal → Caches → Caches
  | .exchangeInfo, cache, caches => { caches with exchangeInfo := cache }
  | .ticker, cache, caches => { caches with ticker := cache }
  | .klines, cache, caches => { caches with klines := cache }
  | .allTickers, cache, caches => { caches with allTickers := cache }

end Caches

/-- Why a call fails. -/
inductive Failure
  | exchange (error : ExchangeError)
  | parsing (error : ParseError)
  | symbolNotFound (message : String) (symbol : String)

abbrev Query := List (String × ParamValue)

/-- What the adapter awaits, and what it does to its own state between two awaits. -/
inductive MarketEffect : Type → Type 1
  | getJson (path : String) (params : Query) : MarketEffect Json
  | firstDone : MarketEffect Bool
  | cached {V : Type} (slot : Slot V) (key : String) : MarketEffect (Option V)
  | store {V : Type} (slot : Slot V) (key : String) (value : V) : MarketEffect Unit
  | recordSuccess : MarketEffect Unit
  | recordFailure (errorCode : String) : MarketEffect Unit
  | universeUpdated : MarketEffect Unit
  | tracked : MarketEffect (ConnectionTracker × Option Timestamp)
  | monotonic : MarketEffect Decimal
  | utcnow : MarketEffect Timestamp

abbrev MarketM := Coroutine MarketEffect Failure

structure MarketDataStatus where
  exchange : String
  source : String
  connectionStatus : ConnectionStatus
  lastSuccess : Option Timestamp
  lastFailure : Option Timestamp
  lastErrorCode : Option String
  lastSuccessAgeSeconds : Option Decimal
  symbolsDiscovered : Option Nat
  eligibleSymbols : Option Nat
  universeUpdatedAt : Option Timestamp

/-- No symbol is named: a perpetual contract qualifies the moment it is listed. -/
def isEligible (symbol : Symbol) : Bool :=
  symbol.contractType = .perpetual && symbol.quoteAsset = "USDT" && symbol.status = .trading &&
    0 < symbol.filters.tickSize && 0 < symbol.filters.stepSize

def parsed {α : Type} (result : Parsed α) : MarketM α := finished (result.mapError .parsing)

/-- A request, and what came of it told to the tracker. -/
def get (path : String) (params : Query) : MarketM Json := do
  match ← (perform (.getJson path params)).caught with
  | .ok payload => do
      perform .recordSuccess
      return payload
  | .error (.exchange error) => do
      perform (.recordFailure error.code)
      raise (.exchange error)
  | .error failure => raise failure

/-- Two requests at once. One of them is done first, and neither stops the other. -/
def gather {α : Type} (first second : MarketM α) : MarketM (Except Failure α × Except Failure α) := do
  if ← perform .firstDone then
    let x ← first.caught
    let y ← second.caught
    return (x, y)
  else
    let y ← second.caught
    let x ← first.caught
    return (x, y)

/-- What the cache has, or else what is fetched. -/
def cachedOr {V : Type} (lookup : MarketEffect (Option V)) (fetch : MarketM V) : MarketM V := do
  match ← perform lookup with
  | some value => return value
  | none => fetch

/-- The best bid and ask are optional. -/
def bookOf : Except Failure Json → Json
  | .ok payload => payload
  | .error _ => .null

/-- The statistics, without which there is no ticker, and the best bid and ask, which may fail. -/
def fetchBoth (params : Query) : MarketM (Json × Json) := do
  let (stats, book) ← gather (get ticker24h params) (get bookTicker params)
  let statsPayload ← finished stats
  return (statsPayload, bookOf book)

def observedOk {V : Type} (value : V) (eventTs : Option Timestamp) : MarketM (Observation V) := do
  let receivedTs ← perform .utcnow
  return ⟨some value, .ok, sourceRest, eventTs, receivedTs, none, rfl⟩

def observedStale {V : Type} (detail : String) (eventTs : Option Timestamp) : MarketM (Observation V) := do
  let receivedTs ← perform .utcnow
  return ⟨none, .stale, sourceRest, eventTs, receivedTs, some detail, rfl⟩

/-- The age of what happened then, if it is known when; a clock that is ahead makes it no fault. -/
def classify : Option Timestamp → MarketM (Option Decimal)
  | none => return none
  | some eventTime => do
      let now ← perform .utcnow
      return some (max (totalSeconds (now - eventTime)) 0)

/-- The newest of the tickers' times. -/
def newest (tickers : List Ticker) : Option Timestamp := (tickers.filterMap fun ticker => ticker.eventTime).max?

section Adapter

variable [Runtime] [Platform] (settings : MarketSettings)

def fetchExchangeInfo : MarketM ExchangeInfo := do
  let payload ← get exchangeInfoPath []
  let info ← parsed (parseExchangeInfo payload)
  perform (.store .exchangeInfo exchangeInfoKey info)
  perform .universeUpdated
  return info

def getExchangeInfo : MarketM ExchangeInfo := cachedOr (.cached .exchangeInfo exchangeInfoKey) fetchExchangeInfo

def getSymbols (eligibleOnly : Bool) : MarketM (List Symbol) := do
  let info ← getExchangeInfo
  return if eligibleOnly then info.symbols.filter isEligible else info.symbols

/-- An unknown symbol costs a cached lookup, and no request. -/
def resolveSymbol (symbol : String) : MarketM Symbol := do
  let wanted := Runtime.upper symbol
  let info ← getExchangeInfo
  match info.symbols.find? fun candidate => candidate.symbol = wanted with
  | some candidate => return candidate
  | none => raise (.symbolNotFound s!"Symbol {wanted} is not listed on {exchangeName}" wanted)

def tickerKey (symbol : String) : String := s!"ticker:{symbol}"

def fetchTicker (symbol : String) : MarketM Ticker := do
  let (stats, book) ← fetchBoth [("symbol", .text symbol)]
  let ticker ← parsed (parseTicker stats book)
  perform (.store .ticker (tickerKey symbol) ticker)
  return ticker

def getTicker (symbol : String) : MarketM (Observation Ticker) := do
  let resolved ← resolveSymbol symbol
  let ticker ← cachedOr (.cached .ticker (tickerKey resolved.symbol)) (fetchTicker resolved.symbol)
  match ← classify ticker.eventTime with
  | none => observedOk ticker ticker.eventTime
  | some age =>
      if settings.maxTickerAgeSeconds < age then
        let shown := fixed 1 age
        let name := resolved.symbol
        observedStale s!"Ticker for {name} is {shown}s old" ticker.eventTime
      else observedOk ticker ticker.eventTime

def fetchAllTickers : MarketM (List Ticker) := do
  let (stats, book) ← fetchBoth []
  let tickers ← parsed (parseTickerList stats book)
  perform (.store .allTickers allTickersKey tickers)
  return tickers

/-- The snapshot is as fresh as its newest ticker. -/
def getAllTickers : MarketM (Observation (List Ticker)) := do
  let tickers ← cachedOr (.cached .allTickers allTickersKey) fetchAllTickers
  match ← classify (newest tickers) with
  | none => observedOk tickers (newest tickers)
  | some age =>
      if settings.maxTickerAgeSeconds < age then
        let shown := fixed 1 age
        observedStale s!"Newest ticker in the whole snapshot is {shown}s old" (newest tickers)
      else observedOk tickers (newest tickers)

/-- At least one bar, and at most what the venue gives at once. -/
def boundedLimit (limit : Int) : Nat := (max 1 (min limit settings.maxKlinesLimit)).toNat

def klinesKey (symbol : String) (timeframe : Timeframe) (bounded : Nat) : String :=
  let interval := timeframe.value
  s!"klines:{symbol}:{interval}:{bounded}"

def klinesParams (symbol : String) (timeframe : Timeframe) (bounded : Nat) : Query :=
  [("symbol", .text symbol), ("interval", .text timeframe.value), ("limit", .int bounded)]

def fetchKlines (symbol : String) (timeframe : Timeframe) (bounded : Nat) : MarketM CandleSeries := do
  let payload ← get klinesPath (klinesParams symbol timeframe bounded)
  let series ← parsed (parseKlines payload symbol timeframe)
  perform (.store .klines (klinesKey symbol timeframe bounded) series)
  return series

def maxCandleAge (timeframe : Timeframe) : Decimal := timeframe.seconds * settings.maxCandleAgeMultiple

/-- The last bar is usually still forming, and closes in the future. -/
def getKlines (symbol : String) (timeframe : Timeframe) (limit : Int) : MarketM (Observation CandleSeries) := do
  let resolved ← resolveSymbol symbol
  let bounded := boundedLimit settings limit
  let series ← cachedOr (.cached .klines (klinesKey resolved.symbol timeframe bounded))
    (fetchKlines resolved.symbol timeframe bounded)
  match series.candles.getLast? with
  | none => observedOk series none
  | some last => do
      let age := (← classify (some last.closeTime)).getD 0
      let maxAge := maxCandleAge settings timeframe
      if maxAge < age then
        let interval := timeframe.value
        let name := resolved.symbol
        let shown := fixed 0 age
        let allowed := fixed 0 maxAge
        observedStale s!"Most recent {interval} candle for {name} closed {shown}s ago (limit {allowed}s)"
          (some last.closeTime)
      else observedOk series (some last.closeTime)

def ageOf : Option Timestamp → MarketM (Option Decimal)
  | none => return none
  | some lastSuccess => do
      let now ← perform .utcnow
      return some (totalSeconds (now - lastSuccess))

/-- What is known of the connection, without a request. -/
def getMarketStatus : MarketM MarketDataStatus := do
  let info ← perform (.cached .exchangeInfo exchangeInfoKey)
  let (tracker, universeUpdatedAt) ← perform .tracked
  let age ← ageOf tracker.lastSuccess
  return {
    exchange := exchangeName
    source := sourceRest
    connectionStatus := tracker.status
    lastSuccess := tracker.lastSuccess
    lastFailure := tracker.lastFailure
    lastErrorCode := tracker.lastErrorCode
    lastSuccessAgeSeconds := age
    symbolsDiscovered := info.map fun info => info.symbols.length
    eligibleSymbols := info.map fun info => (info.symbols.filter isEligible).length
    universeUpdatedAt := universeUpdatedAt }

end Adapter

end Aetheris.MarketData
