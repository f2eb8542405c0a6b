import Aetheris.Clock
import Aetheris.Leverage
import Aetheris.Lib.Transaction
import Aetheris.OrderIdentity

namespace Aetheris.RiskEngine

open Lib Transaction Money Clock Enums Leverage OrderIdentity

structure SymbolFilters where
  stepSize : Decimal
  minQuantity : Decimal
  maxQuantity : Option Decimal := none
  minNotional : Option Decimal := none
  step_pos : 0 < stepSize
  min_nonneg : 0 ≤ minQuantity

structure RiskPolicy where
  maxOpenPositions : Int
  maxPositionNotional : Decimal
  maxPortfolioExposure : Decimal
  maxLeverage : Decimal
  maxDataAgeSeconds : Decimal
  entryCooldownSeconds : Decimal
  maxAtrPercent : Decimal

structure RiskProposal where
  symbol : String
  side : OrderSide
  requestedMargin : Decimal
  requestedLeverage : Decimal
  stopLossPercent : Option Decimal := none

structure RiskAccountView where
  availableBalance : Decimal
  openSymbols : List String
  openPositionCount : Nat
  totalNotional : Decimal
  sessionRealizedPnl : Decimal
  dailyProfitTarget : Decimal
  dailyLossLimit : Decimal
  lockState : RiskLockState
  lockReason : Option String := none
  emergencyStopped : Bool := false
  emergencyReason : Option String := none
  modeEnabled : Bool := true
  unreconciledOrders : Nat := 0
  unreconciledDetail : Option String := none
  lastEntryAt : Option Timestamp := none

structure RiskMarketView where
  status : DataStatus
  ageSeconds : Option Decimal
  lastPrice : Option Decimal
  atrPercent : Option Decimal := none
  volatilityStatus : VolatilityStatus := .measured
  volatilityDetail : Option String := none
  filters : Option SymbolFilters := none
  exchangeMaxLeverage : Option Decimal := none

/-- Approved with a size, or refused with a code. -/
structure RiskVerdict where
  approved : Bool
  detail : String
  leverage : LeverageDecision
  code : Option RiskRejectionCode := none
  approvedMargin : Option Decimal := none
  approvedQuantity : Option Decimal := none
  approvedNotional : Option Decimal := none
  riskMaxLeverage : Option Decimal := none
  checksPerformed : List String := []
  approved_code : approved → code = none := by simp
  refused_code : approved = false → code.isSome := by simp
  approved_margin : approved → approvedMargin.isSome := by simp

def liquidationSafetyFactor : Decimal := 2

/-- Two decimals, rounded down. -/
def truncateCents (value : Decimal) : Decimal := truncDiv value (1 / 100) * (1 / 100)

def deriveRiskMaxLeverage (stopLossPercent : Option Decimal)
    (requestedMargin sessionRealizedPnl dailyLossLimit configuredMaxLeverage : Decimal) : Option Decimal :=
  match stopLossPercent with
  | none => none
  | some stop =>
      if stop ≤ 0 then none
      else if requestedMargin ≤ 0 ∨ configuredMaxLeverage < leverageMin then none
      else
        let fromLiquidation := 100 / (stop * liquidationSafetyFactor)
        let remainingBudget := sessionRealizedPnl - dailyLossLimit
        if remainingBudget ≤ 0 then some leverageMin
        else
          let lossPerLeverage := requestedMargin * stop / 100
          let fromBudget := if 0 < lossPerLeverage then remainingBudget / lossPerLeverage else leverageMax
          let ceiling :=
            truncateCents (min (min (min fromLiquidation fromBudget) configuredMaxLeverage) leverageMax)
          if ceiling < leverageMin then some leverageMin else some ceiling

inductive EvaluateError
  | requestOutOfRange (requested : Decimal)
  | divisionByZero
  | money (message : String)

/-- How a ruling ends before it is approved: the arguments of the refusal, or
an exception. -/
inductive Stop
  | refused (code : RiskRejectionCode) (detail : String) (leverage : LeverageDecision) (checks : List String)
      (riskMax : Option Decimal)
  | raised (error : EvaluateError)

/-- A ruling under way carries the names of the checks made so far. -/
abbrev Ruling := Transaction (List String) Stop

def refuse (code : RiskRejectionCode) (detail : String) (leverage : LeverageDecision) (checks : List String)
    (riskMax : Option Decimal) : RiskVerdict where
  approved := false
  code := some code
  detail := detail
  leverage := leverage
  riskMaxLeverage := riskMax
  checksPerformed := checks

def verdictOf : Except Stop (RiskVerdict × List String) → Except EvaluateError RiskVerdict
  | .ok (verdict, _) => .ok verdict
  | .error (.refused code detail leverage checks riskMax) => .ok (refuse code detail leverage checks riskMax)
  | .error (.raised error) => .error error

def check (name : String) : Ruling Unit := modify (· ++ [name])

def stop {α : Type} (code : RiskRejectionCode) (detail : String) (leverage : LeverageDecision)
    (riskMax : Option Decimal) : Ruling α := do
  throw (.refused code detail leverage (← get) riskMax)

def refuseWhen (p : Prop) [Decidable p] (code : RiskRejectionCode) (detail : String) (leverage : LeverageDecision)
    (riskMax : Option Decimal) : Ruling Unit :=
  if p then stop code detail leverage riskMax else pure ()

def required {α : Type} (value : Option α) (code : RiskRejectionCode) (detail : String)
    (leverage : LeverageDecision) : Ruling α :=
  match value with
  | some a => pure a
  | none => stop code detail leverage none

/-- `text or default`: an empty text counts as none. -/
def orText (text : Option String) (default : String) : String :=
  match text with
  | some t => if t = "" then default else t
  | none => default

def notReached : LeverageDecision where
  outcome := .rejected
  reason := .insufficientData
  detail := "The leverage chain was not reached: the proposal was refused earlier."

def lockCode (state : RiskLockState) : RiskRejectionCode :=
  if state = .dailyProfitTarget then .dailyProfitTarget else .dailyLossLimit

def ruleAccount (account : RiskAccountView) : Ruling Unit := do
  check "mode_enabled"
  refuseWhen (account.modeEnabled = false) .modeNotEnabled
    "Paper trading is not enabled in this deployment's configuration." notReached none
  check "emergency_stop"
  refuseWhen account.emergencyStopped .emergencyStop
    (orText account.emergencyReason "An emergency stop is active; no new entries.") notReached none
  check "reconciliation_pending"
  let count := account.unreconciledOrders
  refuseWhen (0 < count) .reconciliationPending
    (orText account.unreconciledDetail (s!"{count} order(s) are awaiting reconciliation. " ++
      "There may be a position at the venue that this system cannot see, so no " ++
      "new entry is permitted until that is settled.")) notReached none
  check "daily_session_lock"
  let code := lockCode account.lockState
  let pnl := str account.sessionRealizedPnl
  let target := str (if code = .dailyProfitTarget then account.dailyProfitTarget else account.dailyLossLimit)
  refuseWhen account.lockState.blocksEntries code
    (orText account.lockReason (s!"The day's realised PnL of {pnl} USDT has " ++
      s!"reached {target} USDT. No new entries today; open positions are " ++
      "still managed.")) notReached none

/-- The price that may be acted on. -/
def ruleMarket (symbol : String) (market : RiskMarketView) (policy : RiskPolicy) : Ruling Decimal := do
  check "market_data_usable"
  let status := market.status.value
  let unusable := s!"Market data for {symbol} is {status}; no price to act on."
  refuseWhen (market.status ≠ .ok) .staleData unusable notReached none
  let price ← required market.lastPrice .staleData unusable notReached
  let age ← required market.ageSeconds .staleData
    (s!"Freshness of {symbol}'s price could not be verified (the venue " ++
      "supplied no event timestamp), so it cannot inform an order.") notReached
  let old := fixed 1 age
  let limit := fixed 0 policy.maxDataAgeSeconds
  refuseWhen (policy.maxDataAgeSeconds < age) .staleData
    (s!"{symbol}'s price is {old}s old, beyond the " ++ s!"{limit}s limit for acting on it.") notReached none
  return price

def ruleSlots (symbol : String) (account : RiskAccountView) (policy : RiskPolicy) : Ruling Unit := do
  check "symbol_not_already_open"
  refuseWhen (symbol ∈ account.openSymbols) .symbolLimit
    s!"A position in {symbol} is already open; this engine holds one per symbol." notReached none
  check "max_open_positions"
  let count := account.openPositionCount
  let ceiling := policy.maxOpenPositions
  refuseWhen (ceiling ≤ (count : Int)) .maxOpenPositions
    s!"{count} positions are open, at the ceiling of {ceiling}." notReached none

def coolingDown (account : RiskAccountView) (policy : RiskPolicy) (now : Timestamp) : Option Decimal :=
  account.lastEntryAt.bind fun entered =>
    let elapsed := totalSeconds (now - entered)
    if 0 < policy.entryCooldownSeconds ∧ elapsed < policy.entryCooldownSeconds then some elapsed else none

def rulePacing (symbol : String) (account : RiskAccountView) (policy : RiskPolicy) (now : Timestamp) :
    Ruling Unit := do
  check "entry_cooldown"
  let cooling := coolingDown account policy now
  let elapsed := fixed 0 (cooling.getD 0)
  let cooldown := fixed 0 policy.entryCooldownSeconds
  refuseWhen cooling.isSome .cooldown
    (s!"{symbol} was entered {elapsed}s ago; the cooldown is " ++
      s!"{cooldown}s. Re-entering immediately " ++
      "after an exit is how one bad signal becomes several.") notReached none

def ruleVolatility (symbol : String) (market : RiskMarketView) (policy : RiskPolicy) : Ruling Unit := do
  check "measured_volatility"
  let status := market.volatilityStatus.value
  let code := if market.volatilityStatus = .insufficientHistory then RiskRejectionCode.insufficientHistory
    else .staleData
  let unmeasured := orText market.volatilityDetail (s!"Volatility for {symbol} could not be measured " ++
    s!"({status}), so the risk envelope cannot be " ++
    "applied to it. It is not estimated and not assumed.")
  refuseWhen (market.volatilityStatus ≠ .measured) code unmeasured notReached none
  let atr ← required market.atrPercent code unmeasured notReached
  let shown := str atr
  let ceiling := str policy.maxAtrPercent
  refuseWhen (policy.maxAtrPercent < atr) .abnormalVolatility
    (s!"Measured ATR is {shown}% of price, beyond the " ++
      s!"{ceiling}% ceiling. This is an observation of " ++
      "current volatility, not a forecast of what it will do next.") notReached none

def derivedCeiling (proposal : RiskProposal) (account : RiskAccountView) (policy : RiskPolicy) :
    Option Decimal :=
  deriveRiskMaxLeverage proposal.stopLossPercent proposal.requestedMargin account.sessionRealizedPnl
    account.dailyLossLimit policy.maxLeverage

def leverageBasis : String :=
  "Risk engine evaluation of a proposed position. The ceiling is derived " ++
    "from stop distance, posted margin and the day's remaining loss budget " ++
    "-- measured quantities only. It is not a confidence, a probability, or " ++
    "an opinion about the trade."

def leverageRequest (proposal : RiskProposal) : Except EvaluateError LeverageRequest :=
  if h : leverageMin ≤ proposal.requestedLeverage ∧ proposal.requestedLeverage ≤ leverageMax then
    .ok { requestedLeverage := proposal.requestedLeverage
          basis := leverageBasis
          inputs := [("requested_leverage", proposal.requestedLeverage),
            ("stop_loss_percent", proposal.stopLossPercent.getD 0), ("requested_margin", proposal.requestedMargin)]
          requested_min := h.1
          requested_max := h.2 }
  else .error (.requestOutOfRange proposal.requestedLeverage)

def raising {α : Type} : Except EvaluateError α → Ruling α
  | .ok a => pure a
  | .error e => throw (.raised e)

def ruleLeverage (proposal : RiskProposal) (account : RiskAccountView) (market : RiskMarketView)
    (policy : RiskPolicy) : Ruling (LeverageDecision × Decimal) := do
  check "risk_max_leverage_derived"
  let riskMax := derivedCeiling proposal account policy
  check "leverage_constraint_chain"
  let request ← raising (leverageRequest proposal)
  let decision := resolveLeverage (some request) market.exchangeMaxLeverage riskMax true
  let detail := decision.detail
  let refused := s!"Leverage was not approved: {detail}"
  refuseWhen (decision.isUsable = false) .maxLeverage refused decision riskMax
  match decision.approvedLeverage with
  | some approved => return (decision, approved)
  | none => stop .maxLeverage refused decision riskMax

def ruleMargin (proposal : RiskProposal) (account : RiskAccountView) (decision : LeverageDecision)
    (riskMax : Option Decimal) : Ruling Unit := do
  check "margin_positive"
  refuseWhen (proposal.requestedMargin ≤ 0) .positionSize "The proposed margin is not positive." decision riskMax
  check "sufficient_balance"
  let margin := str proposal.requestedMargin
  let available := str account.availableBalance
  refuseWhen (account.availableBalance < proposal.requestedMargin) .insufficientBalance
    (s!"Margin of {margin} exceeds the available balance " ++ s!"{available}.") decision riskMax

/-- Quantity and notional after the venue's filters. -/
def ruleFilters (symbol : String) (market : RiskMarketView) (price notional : Decimal)
    (decision : LeverageDecision) (riskMax : Option Decimal) : Ruling (Decimal × Decimal) := do
  let quantity ← raising (if price = 0 then .error .divisionByZero else .ok (notional / price))
  check "venue_filters"
  match market.filters with
  | none => return (quantity, notional)
  | some filters =>
      let quantity ← raising ((floorToStep quantity filters.stepSize).mapError .money)
      let step := str filters.stepSize
      refuseWhen (quantity ≤ 0) .exchangePrecision
        ("After truncating to the venue's step size of " ++
          s!"{step}, the order rounds to zero: the " ++
          "proposed size is smaller than one tradable increment.") decision riskMax
      let shown := str quantity
      let least := str filters.minQuantity
      refuseWhen (0 < filters.minQuantity ∧ quantity < filters.minQuantity) .exchangePrecision
        (s!"Quantity {shown} is below the venue's minimum of " ++ s!"{least}.") decision riskMax
      let notional := quantizeUsdt (quantity * price)
      let shown := str notional
      let least := str (filters.minNotional.getD 0)
      refuseWhen (filters.minNotional.any (fun least => decide (notional < least))) .minNotional
        (s!"Notional {shown} is below the venue's published minimum of " ++ s!"{least} for {symbol}.")
        decision riskMax
      return (quantity, notional)

def ruleExposure (account : RiskAccountView) (policy : RiskPolicy) (notional : Decimal)
    (decision : LeverageDecision) (riskMax : Option Decimal) : Ruling Unit := do
  check "max_position_notional"
  let shown := str notional
  let ceiling := str policy.maxPositionNotional
  refuseWhen (policy.maxPositionNotional < notional) .positionSize
    s!"Notional {shown} exceeds the per-position ceiling {ceiling}." decision riskMax
  check "portfolio_exposure"
  let total := str (account.totalNotional + notional)
  let ceiling := str policy.maxPortfolioExposure
  refuseWhen (policy.maxPortfolioExposure < account.totalNotional + notional) .portfolioExposure
    (s!"This position would take total notional to " ++ s!"{total}, beyond the portfolio ceiling " ++
      s!"{ceiling}.") decision riskMax

theorem approved_uncoded : true → (none : Option RiskRejectionCode) = none := fun _ => rfl

theorem approved_unrefused : true = false → (none : Option RiskRejectionCode).isSome := nofun

def approve (symbol : String) (decision : LeverageDecision) (approvedLeverage quantity notional : Decimal)
    (riskMax : Option Decimal) : Ruling RiskVerdict := do
  let approvedMargin := quantizeUsdt (notional / approvedLeverage)
  check "approved"
  let size := str quantity
  let leverage := str approvedLeverage
  let margin := str approvedMargin
  let total := str notional
  return {
    approved := true
    detail := s!"Approved: {size} {symbol} at {leverage}x, margin " ++
      s!"{margin} USDT, notional {total} USDT. Every configured " ++
      "limit was evaluated and none binds."
    leverage := decision
    approvedMargin := some approvedMargin
    approvedQuantity := some quantity
    approvedNotional := some notional
    riskMaxLeverage := riskMax
    checksPerformed := ← get
    approved_code := approved_uncoded
    refused_code := approved_unrefused }

variable [Runtime]

def rule (proposal : RiskProposal) (account : RiskAccountView) (market : RiskMarketView) (policy : RiskPolicy)
    (now : Timestamp) : Ruling RiskVerdict := do
  let symbol := Runtime.upper proposal.symbol
  ruleAccount account
  let price ← ruleMarket symbol market policy
  ruleSlots symbol account policy
  rulePacing symbol account policy now
  ruleVolatility symbol market policy
  let (decision, approved) ← ruleLeverage proposal account market policy
  let riskMax := derivedCeiling proposal account policy
  ruleMargin proposal account decision riskMax
  let requested := quantizeUsdt (proposal.requestedMargin * approved)
  let (quantity, notional) ← ruleFilters symbol market price requested decision riskMax
  ruleExposure account policy notional decision riskMax
  approve symbol decision approved quantity notional riskMax

def evaluate (proposal : RiskProposal) (account : RiskAccountView) (market : RiskMarketView)
    (policy : RiskPolicy) (now : Timestamp) : Except EvaluateError RiskVerdict :=
  verdictOf (rule proposal account market policy now [])

end Aetheris.RiskEngine
