import Aetheris.Lib.Noting
import Aetheris.PaperService
import Aetheris.RiskEnvelope
import Aetheris.TestnetWorld

namespace Aetheris.TestnetRuling

open Lib Coroutine Money Clock Enums RiskEngine RiskEnvelope OrderRecords OrderStore OrderEngine OrderIdentity
  TestnetService TestnetWorld
open PaperService (Observation Ticker VolatilityMeasurement)

/-- What the ruling reads of the settings. -/
structure RiskSettings where
  maxLeverage : Decimal
  maxOpenPositions : Int
  maxPositionNotional : Decimal
  maxPortfolioExposure : Decimal
  maxDataAgeSeconds : Decimal
  manualEntryCooldownSeconds : Decimal
  maxAtrPercent : Decimal
  dailyProfitTarget : Decimal
  dailyLossLimit : Decimal

def RiskSettings.policy (settings : RiskSettings) : RiskPolicy where
  maxOpenPositions := settings.maxOpenPositions
  maxPositionNotional := settings.maxPositionNotional
  maxPortfolioExposure := settings.maxPortfolioExposure
  maxLeverage := settings.maxLeverage
  maxDataAgeSeconds := settings.maxDataAgeSeconds
  entryCooldownSeconds := settings.manualEntryCooldownSeconds
  maxAtrPercent := settings.maxAtrPercent

/-- What the ruling reads of the venue's account. -/
structure VenueAccount where
  availableBalance : Option Decimal

/-- The awaits of the service, with those of ruling and sizing one by one. -/
inductive Detailed (σ : Type) : Type → Type 1
  | base {β : Type} (f : TestnetService.Effect σ β) : Detailed σ β
  | getTicker (symbol : String) : Detailed σ Observation
  | measureVolatility (symbol : String) : Detailed σ VolatilityMeasurement
  | accountIdentity : Detailed σ VenueAccount
  | leverageBracket (symbol : String) (notional : Decimal) : Detailed σ Decimal
  | sessionRealizedPnl : Detailed σ Decimal
  | reconciliationPending : Detailed σ ReconciliationPending
  | getSymbol (symbol : String) : Detailed σ SymbolFilters

abbrev DetailedM (σ : Type) := Coroutine (Detailed σ) ServiceError

variable {σ : Type}

def raised : EvaluateError → ServiceError
  | .requestOutOfRange _ => .other "ValidationError"
  | .divisionByZero => .other "DivisionByZero"
  | .money message => .other message

/-- The view the service assembles of the venue's account. -/
def accountView (service : TestnetExecutionService) (settings : RiskSettings) (balance realized : Decimal)
    (pending : ReconciliationPending) : RiskAccountView where
  availableBalance := balance
  openSymbols := []
  openPositionCount := 0
  totalNotional := 0
  sessionRealizedPnl := realized
  dailyProfitTarget := settings.dailyProfitTarget
  dailyLossLimit := settings.dailyLossLimit
  lockState := .none
  modeEnabled := service.testnetEnabled
  unreconciledOrders := pending.count
  unreconciledDetail := some pending.detail

def marketView (mark : Observation) (price : Decimal) (volatility : VolatilityMeasurement) (filters : SymbolFilters)
    (maxLeverage : Decimal) : RiskMarketView where
  status := mark.status
  ageSeconds := mark.ageSeconds
  lastPrice := some price
  atrPercent := volatility.atrPercent
  volatilityStatus := volatility.status
  volatilityDetail := volatility.detail
  filters := some filters
  exchangeMaxLeverage := some maxLeverage

def proposal (request : TestnetOrderRequest) (symbol : String) : RiskProposal where
  symbol := symbol
  side := request.side
  requestedMargin := request.margin
  requestedLeverage := request.requestedLeverage
  stopLossPercent := some request.stopLossPercent

/-- A verdict as the service reads it. It reads no leverage of a refusal. -/
def asRead (verdict : RiskEngine.RiskVerdict)
    (hmin : verdict.approved = true → ∀ l ∈ verdict.leverage.approvedLeverage, 1 ≤ l) : TestnetService.RiskVerdict where
  approved := verdict.approved
  detail := verdict.detail
  leverage :=
    { approvedLeverage := if verdict.approved then verdict.leverage.approvedLeverage else none
      approvedLeverage_min := by
        cases ha : verdict.approved with
        | true => exact hmin ha
        | false => exact nofun }
  code := verdict.code
  checksPerformed := verdict.checksPerformed
  approved_code := verdict.approved_code
  refused_code := verdict.refused_code

theorem asRead_leverage {verdict : RiskEngine.RiskVerdict}
    {hmin : verdict.approved = true → ∀ l ∈ verdict.leverage.approvedLeverage, 1 ≤ l} {l : Decimal}
    (h : l ∈ (asRead verdict hmin).leverage.approvedLeverage) : verdict.leverage.approvedLeverage = some l := by
  change (if verdict.approved = true then verdict.leverage.approvedLeverage else none) = some l at h
  split at h
  · exact h
  · cases h

theorem evaluate_min [Runtime] {proposal : RiskProposal} {account : RiskAccountView} {market : RiskMarketView}
    {policy : RiskPolicy} {now : Timestamp} {verdict : RiskEngine.RiskVerdict}
    (h : evaluate proposal account market policy now = .ok verdict) :
    verdict.approved = true → ∀ l ∈ verdict.leverage.approvedLeverage, 1 ≤ l := by
  intro ha l hl
  obtain ⟨_, l', _, hcleared⟩ := evaluate_cleared h ha
  obtain ⟨_, _, hpermitted⟩ := hcleared.leverage
  obtain rfl : l' = l := Option.some.inj (hcleared.approvedLeverage.symm.trans hl)
  exact hpermitted.min

def venueState (symbol : String) (notional : Decimal) : DetailedM σ (VenueAccount × Decimal × Decimal) := do
  let account ← perform .accountIdentity
  let maxLeverage ← perform (.leverageBracket symbol notional)
  let realized ← perform .sessionRealizedPnl
  return (account, maxLeverage, realized)

variable [Runtime]

def ruleListed (service : TestnetExecutionService) (settings : RiskSettings) (request : TestnetOrderRequest)
    (symbol : String) (now : Timestamp) (mark : Observation) (price : Decimal) (volatility : VolatilityMeasurement)
    (balance maxLeverage realized : Decimal) (pending : ReconciliationPending) (filters : SymbolFilters) :
    DetailedM σ (Option TestnetService.RiskVerdict × String) :=
  match h : evaluate (proposal request symbol) (accountView service settings balance realized pending)
      (marketView mark price volatility filters maxLeverage) settings.policy now with
  | .ok verdict => return (some (asRead verdict (evaluate_min h)), verdict.detail)
  | .error e => raise (raised e)

/-- The risk engine over what the venue answers. -/
def rule (service : TestnetExecutionService) (settings : RiskSettings) (request : TestnetOrderRequest)
    (record : OrderRecord) (now : Timestamp) : DetailedM σ (Option TestnetService.RiskVerdict × String) := do
  let symbol := record.intent.symbol
  let mark ← perform (.getTicker symbol)
  match mark.value with
  | none => return (none, s!"No usable mark price for {symbol}.")
  | some ticker =>
      let volatility ← perform (.measureVolatility symbol)
      match ← (venueState symbol (request.margin * request.requestedLeverage)).caught with
      | .error e =>
          let reason := e.text
          if e.isExchangeError then return (none, s!"Venue account state could not be read: {reason}") else raise e
      | .ok (account, maxLeverage, realized) =>
          match account.availableBalance with
          | none => return (none, "The venue did not report an available balance.")
          | some balance =>
              let pending ← perform .reconciliationPending
              match ← (perform (.getSymbol symbol)).caught with
              | .error e =>
                  if e.isAetherisError then
                    return (none, s!"{symbol} is not a listed instrument at the venue.")
                  else raise e
              | .ok filters =>
                  ruleListed service settings request symbol now mark ticker.lastPrice volatility balance maxLeverage
                    realized pending filters

/-- Ruling, and what sizing reads, step by step. -/
def inDetail (service : TestnetExecutionService) (settings : RiskSettings) :
    {β : Type} → TestnetService.Effect σ β → DetailedM σ β
  | _, .rule request record now => rule service settings request record now
  | _, .lastPrice symbol => do
      let mark ← perform (.getTicker symbol)
      return mark.value.map Ticker.lastPrice
  | _, .stepSize symbol => do
      let filters ← perform (.getSymbol symbol)
      return filters.stepSize
  | _, f => perform (.base f)

/-- What a call is asked, and what it then reads. -/
inductive Reading
  | asked (request : TestnetOrderRequest)
  | clock (now : Timestamp)
  | ticker (symbol : String) (mark : Observation)
  | volatility (measured : VolatilityMeasurement)
  | account (account : VenueAccount)
  | bracket (maxLeverage : Decimal)
  | realized (pnl : Decimal)
  | pending (pending : ReconciliationPending)
  | listing (symbol : String) (filters : SymbolFilters)

omit [Runtime] in
def note : {β : Type} → Detailed σ β → Except ServiceError β → List Reading
  | _, .base .utcnow, .ok now => [.clock now]
  | _, .getTicker symbol, .ok mark => [.ticker symbol mark]
  | _, .measureVolatility _, .ok measured => [.volatility measured]
  | _, .accountIdentity, .ok account => [.account account]
  | _, .leverageBracket _ _, .ok maxLeverage => [.bracket maxLeverage]
  | _, .sessionRealizedPnl, .ok pnl => [.realized pnl]
  | _, .reconciliationPending, .ok pending => [.pending pending]
  | _, .getSymbol symbol, .ok filters => [.listing symbol filters]
  | _, _, _ => []

variable [OrderRepository σ]

/-- A submission in detail, noting what it reads. -/
def submission (service : TestnetExecutionService) (settings : RiskSettings) (request : TestnetOrderRequest) :
    Coroutine (Noted Reading (Detailed σ)) ServiceError TestnetOrderResult :=
  ((submit service request).expand (inDetail service settings)).noting note [.asked request]

end Aetheris.TestnetRuling
