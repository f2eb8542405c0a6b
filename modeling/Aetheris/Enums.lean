import Mathlib.Logic.Basic

namespace Aetheris.Enums

inductive TradingMode
  | analysis | paper | testnet | live
  deriving DecidableEq, Repr

inductive OrderSide
  | buy | sell
  deriving DecidableEq, Repr

def OrderSide.value : OrderSide → String
  | .buy => "BUY"
  | .sell => "SELL"

inductive OrderType
  | market | limit | stop | stopMarket | takeProfit | takeProfitMarket
  deriving DecidableEq, Repr

def OrderType.value : OrderType → String
  | .market => "MARKET"
  | .limit => "LIMIT"
  | .stop => "STOP"
  | .stopMarket => "STOP_MARKET"
  | .takeProfit => "TAKE_PROFIT"
  | .takeProfitMarket => "TAKE_PROFIT_MARKET"

inductive MarginMode
  | isolated | crossed
  deriving DecidableEq, Repr

def MarginMode.value : MarginMode → String
  | .isolated => "ISOLATED"
  | .crossed => "CROSSED"

inductive OrderOrigin
  | manual | autonomous | recovery
  deriving DecidableEq, Repr

inductive OrderState
  | created | validating | submitted | accepted | partiallyFilled | filled
  | cancelRequested | cancelled | rejected | expired | unknown | reconciling
  deriving DecidableEq, Repr

namespace OrderState

def value : OrderState → String
  | created => "CREATED"
  | validating => "VALIDATING"
  | submitted => "SUBMITTED"
  | accepted => "ACCEPTED"
  | partiallyFilled => "PARTIALLY_FILLED"
  | filled => "FILLED"
  | cancelRequested => "CANCEL_REQUESTED"
  | cancelled => "CANCELLED"
  | rejected => "REJECTED"
  | expired => "EXPIRED"
  | unknown => "UNKNOWN"
  | reconciling => "RECONCILING"

def isTerminal : OrderState → Bool
  | filled | cancelled | rejected | expired => true
  | _ => false

def isOpen : OrderState → Bool
  | submitted | accepted | partiallyFilled | cancelRequested => true
  | _ => false

end OrderState

inductive RiskRejectionCode
  | dailyLossLimit | dailyProfitTarget | maxLeverage | positionSize | symbolLimit | strategyLimit
  | maxOpenPositions | portfolioExposure | staleData | insufficientHistory | abnormalVolatility
  | insufficientBalance | minNotional | exchangePrecision | cooldown | emergencyStop
  | modeNotEnabled | reconciliationPending
  deriving DecidableEq, Repr

def RiskRejectionCode.value : RiskRejectionCode → String
  | dailyLossLimit => "RISK_REJECTED_DAILY_LOSS_LIMIT"
  | dailyProfitTarget => "RISK_REJECTED_DAILY_PROFIT_TARGET"
  | maxLeverage => "RISK_REJECTED_MAX_LEVERAGE"
  | positionSize => "RISK_REJECTED_POSITION_SIZE"
  | symbolLimit => "RISK_REJECTED_SYMBOL_LIMIT"
  | strategyLimit => "RISK_REJECTED_STRATEGY_LIMIT"
  | maxOpenPositions => "RISK_REJECTED_MAX_OPEN_POSITIONS"
  | portfolioExposure => "RISK_REJECTED_PORTFOLIO_EXPOSURE"
  | staleData => "RISK_REJECTED_STALE_DATA"
  | insufficientHistory => "RISK_REJECTED_INSUFFICIENT_HISTORY"
  | abnormalVolatility => "RISK_REJECTED_ABNORMAL_VOLATILITY"
  | insufficientBalance => "RISK_REJECTED_INSUFFICIENT_BALANCE"
  | minNotional => "RISK_REJECTED_MIN_NOTIONAL"
  | exchangePrecision => "RISK_REJECTED_EXCHANGE_PRECISION"
  | cooldown => "RISK_REJECTED_COOLDOWN"
  | emergencyStop => "RISK_REJECTED_EMERGENCY_STOP"
  | modeNotEnabled => "RISK_REJECTED_MODE_NOT_ENABLED"
  | reconciliationPending => "RISK_REJECTED_RECONCILIATION_PENDING"

inductive PositionSide
  | long | short | flat
  deriving DecidableEq, Repr

inductive DataStatus
  | ok | stale | unavailable | error
  deriving DecidableEq, Repr

def DataStatus.value : DataStatus → String
  | ok => "OK"
  | stale => "STALE"
  | unavailable => "UNAVAILABLE"
  | error => "ERROR"

inductive VolatilityStatus
  | measured | insufficientHistory | candlesUnavailable | candlesStale
  deriving DecidableEq, Repr

def VolatilityStatus.value : VolatilityStatus → String
  | measured => "MEASURED"
  | insufficientHistory => "INSUFFICIENT_HISTORY"
  | candlesUnavailable => "CANDLES_UNAVAILABLE"
  | candlesStale => "CANDLES_STALE"

inductive RiskLockState
  | none | dailyProfitTarget | dailyLossLimit | emergencyStop
  deriving DecidableEq, Repr

def RiskLockState.blocksEntries (s : RiskLockState) : Bool := s ≠ none

end Aetheris.Enums
