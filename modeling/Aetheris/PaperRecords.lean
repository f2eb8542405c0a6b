import Aetheris.Lib.Dict
import Aetheris.RiskEngine

namespace Aetheris.PaperRecords

open Lib Money Clock Enums Leverage RiskEngine

inductive PaperExitReason
  | manualClose | stopLoss | takeProfit | trailingStop | liquidation | signalFlip | accountReset
  deriving DecidableEq, Repr

def PaperExitReason.value : PaperExitReason → String
  | manualClose => "MANUAL_CLOSE"
  | stopLoss => "STOP_LOSS"
  | takeProfit => "TAKE_PROFIT"
  | trailingStop => "TRAILING_STOP"
  | liquidation => "LIQUIDATION"
  | signalFlip => "SIGNAL_FLIP"
  | accountReset => "ACCOUNT_RESET"

inductive Durability
  | inMemory | durable
  deriving DecidableEq, Repr

inductive Timeframe
  | m1 | m5 | m15 | h1 | h4 | d1
  deriving DecidableEq, Repr

def Timeframe.value : Timeframe → String
  | m1 => "1m"
  | m5 => "5m"
  | m15 => "15m"
  | h1 => "1h"
  | h4 => "4h"
  | d1 => "1d"

def Timeframe.seconds : Timeframe → Nat
  | m1 => 60
  | m5 => 300
  | m15 => 900
  | h1 => 3600
  | h4 => 14400
  | d1 => 86400

inductive MarketRegime
  | trendUp | trendDown | range | highVolatility | lowVolatility | unknown
  deriving DecidableEq, Repr

def MarketRegime.value : MarketRegime → String
  | trendUp => "TREND_UP"
  | trendDown => "TREND_DOWN"
  | range => "RANGE"
  | highVolatility => "HIGH_VOLATILITY"
  | lowVolatility => "LOW_VOLATILITY"
  | unknown => "UNKNOWN"

inductive VolatilityBand
  | high | normal | low | unknown
  deriving DecidableEq, Repr

structure SetupScoreComponent where
  name : String
  rawValue : Option Decimal := none
  normalized : Decimal
  weight : Decimal
  contribution : Decimal
  detail : String
  deriving DecidableEq

structure ConditionOutcome where
  name : String
  satisfied : Bool
  detail : String
  values : List (String × Decimal) := []
  deriving DecidableEq

structure StrategyContext where
  strategyId : String
  strategyVersion : String
  timeframe : Timeframe
  setupScore : Option Decimal := none
  scoreComponents : List SetupScoreComponent := []
  entryConditions : List ConditionOutcome := []
  regime : Option MarketRegime := none
  volatilityBand : Option VolatilityBand := none
  dataSource : Option String := none
  dataStatus : Option String := none
  dataAgeSeconds : Option Decimal := none
  barCloseTime : Option Timestamp := none
  deriving DecidableEq

inductive ThesisStatus
  | captured | noStrategyContext
  deriving DecidableEq, Repr

structure PositionThesis where
  status : ThesisStatus
  capturedAt : Timestamp
  side : PositionSide
  entryPrice : Decimal
  stopPrice : Option Decimal := none
  targetPrice : Option Decimal := none
  plannedRiskPerUnit : Option Decimal := none
  plannedRiskTotal : Option Decimal := none
  plannedRewardPerUnit : Option Decimal := none
  riskRewardRatio : Option Decimal := none
  strategy : Option StrategyContext := none
  detail : Option String := none
  deriving DecidableEq

/-- The part of a position that is written at entry and never again. -/
structure EntryTerms where
  positionId : String
  symbol : String
  side : PositionSide
  quantity : Decimal
  entryPrice : Decimal
  notional : Decimal
  margin : Decimal
  approvedLeverage : Decimal
  entryFee : Decimal
  openedAt : Timestamp
  openingOrderId : String
  stopPrice : Option Decimal := none
  targetPrice : Option Decimal := none
  trailingStopPercent : Option Decimal := none
  liquidationPrice : Option Decimal := none
  thesis : Option PositionThesis := none
  deriving DecidableEq

structure MutablePosition extends EntryTerms where
  updatedAt : Timestamp
  trailExtreme : Option Decimal := none
  markPrice : Option Decimal := none
  markSource : Option String := none
  markStatus : Option String := none
  bestPrice : Option Decimal := none
  worstPrice : Option Decimal := none
  deriving DecidableEq

def EntryTerms.isLong (t : EntryTerms) : Bool := t.side = .long

structure PaperFill where
  fillId : String
  price : Decimal
  quantity : Decimal
  fee : Decimal
  filledAt : Timestamp
  priceSource : String
  priceAgeSeconds : Option Decimal := none
  deriving DecidableEq

def PaperFill.validates (f : PaperFill) : Bool :=
  decide (0 < f.price) && decide (0 < f.quantity) && decide (0 ≤ f.fee)

structure PaperOrder where
  orderId : String
  clientOrderId : String
  symbol : String
  side : OrderSide
  orderType : Enums.OrderType
  state : OrderState
  reduceOnly : Bool := false
  requestedQuantity : Decimal
  filledQuantity : Decimal := 0
  averageFillPrice : Option Decimal := none
  fills : List PaperFill := []
  leverage : Option LeverageDecision := none
  createdAt : Timestamp
  updatedAt : Timestamp
  rejectionCode : Option RiskRejectionCode := none
  rejectionDetail : Option String := none
  idempotentReplay : Bool := false
  riskVerdictDetail : Option String := none
  deriving DecidableEq

def PaperOrder.isFilled (o : PaperOrder) : Bool := o.state = .filled

def PaperOrder.validates (o : PaperOrder) : Bool :=
  decide (0 < o.requestedQuantity) && decide (0 ≤ o.filledQuantity)

structure PaperTrade where
  tradeId : String
  symbol : String
  side : PositionSide
  quantity : Decimal
  entryPrice : Decimal
  exitPrice : Decimal
  notional : Decimal
  margin : Decimal
  approvedLeverage : Decimal
  openedAt : Timestamp
  closedAt : Timestamp
  exitReason : PaperExitReason
  grossPnl : Decimal
  fees : Decimal
  netPnl : Decimal
  returnPercent : Decimal
  balanceAfter : Decimal
  deriving DecidableEq

structure MutableSession where
  sessionDate : Int
  profitTarget : Decimal
  lossLimit : Decimal
  realizedPnl : Decimal := 0
  fees : Decimal := 0
  tradesClosed : Nat := 0
  ordersSubmitted : Nat := 0
  ordersRejected : Nat := 0
  lockState : RiskLockState := .none
  lockReason : Option String := none
  lockedAt : Option Timestamp := none
  deriving DecidableEq

structure PaperState where
  accountId : String
  createdAt : Timestamp
  updatedAt : Timestamp
  startingBalance : Decimal
  balance : Decimal
  realizedPnl : Decimal := 0
  totalFees : Decimal := 0
  autonomousEnabled : Bool := false
  emergencyStopped : Bool := false
  emergencyReason : Option String := none
  positions : Dict String MutablePosition := .empty
  ordersByClientId : Dict String PaperOrder := .empty
  orderLog : List PaperOrder := []
  trades : List PaperTrade := []
  session : Option MutableSession := none
  sequence : Nat := 0
  deriving DecidableEq

/-- An open position as an account reports it: marked, with its unrealised PnL. -/
structure PaperPosition extends MutablePosition where
  unrealizedPnl : Option Decimal := none
  deriving DecidableEq

/-- The bounds a position is checked against when it is reported. -/
def PaperPosition.validates (p : PaperPosition) : Bool :=
  decide (0 < p.quantity) && decide (0 < p.entryPrice) && decide (0 < p.notional) && decide (0 < p.margin) &&
    decide (1 ≤ p.approvedLeverage) && decide (0 ≤ p.entryFee)

structure PaperAccount where
  accountId : String
  createdAt : Timestamp
  updatedAt : Timestamp
  startingBalance : Decimal
  balance : Decimal
  equity : Decimal
  availableBalance : Decimal
  marginUsed : Decimal
  realizedPnl : Decimal
  unrealizedPnl : Option Decimal
  totalFees : Decimal
  positions : List PaperPosition
  recentOrders : List PaperOrder
  recentTrades : List PaperTrade
  session : MutableSession
  autonomousEnabled : Bool
  durability : Durability
  markSource : Option String
  markStatus : Option String

structure PaperOrderResult where
  accepted : Bool
  order : PaperOrder
  position : Option PaperPosition := none
  trade : Option PaperTrade := none
  account : PaperAccount
  detail : Option String := none
  checksPerformed : List String := []
  riskMaxLeverage : Option Decimal := none

structure MarkPrice where
  symbol : String
  status : DataStatus
  source : String
  lastPrice : Option Decimal := none
  bidPrice : Option Decimal := none
  askPrice : Option Decimal := none
  ageSeconds : Option Decimal := none
  detail : Option String := none
  deriving DecidableEq

def MarkPrice.isUsable (m : MarkPrice) : Bool := m.status = .ok && m.lastPrice.isSome

abbrev Marks := Dict String MarkPrice

structure SubmitOrderRequest where
  symbol : String
  side : OrderSide
  quantity : Option Decimal := none
  margin : Option Decimal := none
  stopLossPercent : Option Decimal := none
  takeProfitPercent : Option Decimal := none
  trailingStopPercent : Option Decimal := none
  clientOrderId : Option String := none
  strategyContext : Option StrategyContext := none
  deriving DecidableEq

structure PaperEngineConfig where
  startingBalance : Decimal
  dailyProfitTarget : Decimal
  dailyLossLimit : Decimal
  maxOpenPositions : Int
  maxPositionNotional : Decimal
  maxPortfolioExposure : Decimal
  maxDataAgeSeconds : Decimal
  takerFeeBps : Decimal := 5
  slippageBps : Decimal := 2
  maxOrderLog : Nat := 200
  maxTradeLog : Nat := 200
  deriving DecidableEq

/-- What moved an account's money, in the order it happened. The source keeps
no such record: its logs are bounded. -/
inductive Event
  | started (date : Int) (realizedPnl totalFees : Decimal)
  | opened (date : Int) (terms : EntryTerms)
  | closed (date : Int) (terms : EntryTerms) (trade : PaperTrade)
  | locked (date : Int)
  deriving DecidableEq

/-- The in-memory store with the answer of its durability probe, and the record
of what moved its money since the account began. -/
structure Repository where
  state : PaperState
  durability : Durability := .inMemory
  journal : List Event := []
  deriving DecidableEq

def defaultAccountId : String := "paper-default"

def fresh (startingBalance : Decimal) (now : Timestamp) : PaperState where
  accountId := defaultAccountId
  createdAt := now
  updatedAt := now
  startingBalance := startingBalance
  balance := startingBalance

end Aetheris.PaperRecords
