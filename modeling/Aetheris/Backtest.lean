import Aetheris.BiasSeries

namespace Aetheris.Backtest

open Lib Money Clock Enums Autonomous Indicators TrendMomentum

section Records

/-- Why a simulated position closed. -/
inductive ExitReason
  | signalFlip | stopLoss | takeProfit | trailingStop | liquidation | endOfData
  deriving DecidableEq, Repr

def ExitReason.value : ExitReason → String
  | .signalFlip => "SIGNAL_FLIP"
  | .stopLoss => "STOP_LOSS"
  | .takeProfit => "TAKE_PROFIT"
  | .trailingStop => "TRAILING_STOP"
  | .liquidation => "LIQUIDATION"
  | .endOfData => "END_OF_DATA"

inductive BacktestStatus
  | completed | insufficientData | unavailable | error
  deriving DecidableEq, Repr

/-- The simulation parameters, every value within its bounds. -/
structure BacktestConfig where
  startingBalance : Decimal
  positionSizePercent : Decimal
  leverage : Decimal
  feeBps : Decimal
  slippageBps : Decimal
  stopLossPercent : Option Decimal
  takeProfitPercent : Option Decimal
  trailingStopPercent : Option Decimal
  allowLong : Bool
  allowShort : Bool
  startingBalance_bounds : 0 < startingBalance ∧ startingBalance ≤ 10000000
  positionSizePercent_bounds : 0 < positionSizePercent ∧ positionSizePercent ≤ 100
  leverage_bounds : 1 ≤ leverage ∧ leverage ≤ 25
  feeBps_bounds : 0 ≤ feeBps ∧ feeBps ≤ 100
  slippageBps_bounds : 0 ≤ slippageBps ∧ slippageBps ≤ 100
  stopLossPercent_bounds : ∀ percent ∈ stopLossPercent, 0 < percent ∧ percent ≤ 90
  takeProfitPercent_bounds : ∀ percent ∈ takeProfitPercent, 0 < percent ∧ percent ≤ 1000
  trailingStopPercent_bounds : ∀ percent ∈ trailingStopPercent, 0 < percent ∧ percent ≤ 90
  atLeastOneDirection : allowLong = true ∨ allowShort = true

def BacktestConfig.feeRate (settings : BacktestConfig) : Decimal := settings.feeBps / 10000

/-- One completed simulated round trip. -/
structure Trade where
  side : PositionSide
  entryTime : Timestamp
  exitTime : Timestamp
  entryPrice : Decimal
  exitPrice : Decimal
  quantity : Decimal
  notional : Decimal
  margin : Decimal
  leverage : Decimal
  exitReason : ExitReason
  barsHeld : Nat
  grossPnl : Decimal
  fees : Decimal
  netPnl : Decimal
  returnPercent : Decimal
  equityAfter : Decimal
  maxAdverseExcursionPercent : Decimal
  maxFavourableExcursionPercent : Decimal
  deriving DecidableEq

/-- Mark-to-market equity at one bar's close. -/
structure EquityPoint where
  time : Timestamp
  equity : Decimal
  drawdownPercent : Decimal
  inPosition : Bool
  deriving DecidableEq

/-- How a reported figure is rounded to so many decimals. -/
structure Rounding where
  round : Nat → Decimal → Decimal
  mono : ∀ places, Monotone (round places)
  neg : ∀ places value, round places (-value) = -round places value
  int : ∀ places (n : ℤ), round places n = n

/-- `value.quantize(exponent)`: half even. -/
def quantize (places : Nat) (value : Decimal) : Decimal := FixedPoint.halfEven (value * 10 ^ places) / 10 ^ places

/-- The figures as the program reports them. -/
def quantized : Rounding where
  round := quantize
  mono places x y h := by
    have hscaled : x * 10 ^ places ≤ y * 10 ^ places := mul_le_mul_of_nonneg_right h (by positivity)
    have hround : (FixedPoint.halfEven (x * 10 ^ places) : Decimal) ≤ FixedPoint.halfEven (y * 10 ^ places) := by
      exact_mod_cast FixedPoint.halfEven_mono hscaled
    exact div_le_div_of_nonneg_right hround (by positivity)
  neg places value := by
    rw [quantize, quantize, neg_mul, FixedPoint.halfEven_neg, Int.cast_neg, neg_div]
  int places n := by
    have hscaled : (n : Decimal) * 10 ^ places = ((n * 10 ^ places : ℤ) : Decimal) := by push_cast; rfl
    have hunit : (10 : Decimal) ^ places ≠ 0 := by positivity
    rw [quantize, hscaled, FixedPoint.halfEven_intCast, ← hscaled, mul_div_cancel_right₀ _ hunit]

/-- The figures as they are computed, before they are reported. -/
def unrounded : Rounding where
  round _ value := value
  mono _ _ _ h := h
  neg _ _ := rfl
  int _ _ := rfl

def Rounding.money (q : Rounding) (value : Decimal) : Decimal := q.round 8 value

def Rounding.percent (q : Rounding) (value : Decimal) : Decimal := q.round 4 value

end Records

section Prices

/-- The position that the rules would hold. -/
def desiredSide (bias : Option StrategyBias) (config : BacktestConfig) : PositionSide :=
  if bias = some .longBias ∧ config.allowLong then .long
  else if bias = some .shortBias ∧ config.allowShort then .short
  else .flat

/-- A fill moved against the trader, always. -/
def applySlippage (price : Decimal) (side : PositionSide) (entering : Bool) (bps : Decimal) : Decimal :=
  let factor := bps / 10000
  let buying := decide (side = .long) == entering
  if buying then price * (1 + factor) else price * (1 - factor)

/-- The order of pairs of a level and a reason. -/
def Before (x y : Decimal × ExitReason) : Prop := x.1 < y.1 ∨ (x.1 = y.1 ∧ x.2.value < y.2.value)

instance (x y : Decimal × ExitReason) : Decidable (Before x y) := inferInstanceAs (Decidable (_ ∨ _))

/-- The first of the greatest levels. -/
def maxLevel : List (Decimal × ExitReason) → Option (Decimal × ExitReason)
  | [] => none
  | first :: rest => some (rest.foldl (fun level x => if Before level x then x else level) first)

/-- The first of the least levels. -/
def minLevel : List (Decimal × ExitReason) → Option (Decimal × ExitReason)
  | [] => none
  | first :: rest => some (rest.foldl (fun level x => if Before x level then x else level) first)

/-- Which level, if any, this bar took the position out at. -/
def resolveIntrabarExit (side : PositionSide) (barHigh barLow : Decimal)
    (stopPrice targetPrice liquidationPrice trailPrice : Option Decimal) : Option (Decimal × ExitReason) :=
  let long := decide (side = .long)
  let adverse := (stopPrice.map fun price => (price, ExitReason.stopLoss)).toList ++
    (liquidationPrice.map fun price => (price, ExitReason.liquidation)).toList ++
    (trailPrice.map fun price => (price, ExitReason.trailingStop)).toList
  let target : Option (Decimal × ExitReason) :=
    (targetPrice.filter fun price => if long then decide (price ≤ barHigh) else decide (barLow ≤ price)).map
      fun price => (price, ExitReason.takeProfit)
  match if long then maxLevel adverse else minLevel adverse with
  | some (level, reason) =>
      if (long ∧ barLow ≤ level) ∨ (¬ long ∧ level ≤ barHigh) then some (level, reason) else target
  | none => target

example : resolveIntrabarExit .long 110 90 (some 98) (some 104) none none = some (98, .stopLoss) := by decide +kernel

end Prices

section Simulation

structure OpenPosition where
  side : PositionSide
  entryTime : Timestamp
  entryIndex : Nat
  entryPrice : Decimal
  quantity : Decimal
  notional : Decimal
  margin : Decimal
  entryFee : Decimal
  stopPrice : Option Decimal
  targetPrice : Option Decimal
  liquidationPrice : Option Decimal
  /-- The extreme seen on bars strictly before the one being evaluated. -/
  trailExtreme : Decimal
  bestPrice : Decimal
  worstPrice : Decimal
  deriving DecidableEq

/-- What the loop over the bars carries. -/
structure Simulation where
  equity : Decimal
  peak : Decimal
  position : Option OpenPosition
  pendingSide : Option PositionSide
  trades : List Trade
  curve : List EquityPoint
  barsInPosition : Nat
  deriving DecidableEq

variable (q : Rounding) (settings : BacktestConfig)

def grossPnl (p : OpenPosition) (fill : Decimal) : Decimal :=
  if p.side = .long then p.quantity * (fill - p.entryPrice) else p.quantity * (p.entryPrice - fill)

def exitFill (p : OpenPosition) (rawPrice : Decimal) : Decimal :=
  applySlippage rawPrice p.side false settings.slippageBps

def tradeFees (p : OpenPosition) (fill : Decimal) : Decimal := p.entryFee + p.quantity * fill * settings.feeRate

/-- A position cannot lose more than the margin posted against it. -/
def tradeNet (p : OpenPosition) (fill : Decimal) : Decimal :=
  max (grossPnl p fill - tradeFees settings p fill) (-p.margin)

/-- The trade that a position ends as, with the equity that it leaves. -/
def tradeOf (p : OpenPosition) (rawPrice : Decimal) (reason : ExitReason) (exitTime : Timestamp) (exitIndex : Nat)
    (equity : Decimal) : Trade :=
  let fill := exitFill settings p rawPrice
  let net := tradeNet settings p fill
  let adverse := if p.side = .long then (p.entryPrice - p.worstPrice) / p.entryPrice * 100
    else (p.worstPrice - p.entryPrice) / p.entryPrice * 100
  let favourable := if p.side = .long then (p.bestPrice - p.entryPrice) / p.entryPrice * 100
    else (p.entryPrice - p.bestPrice) / p.entryPrice * 100
  { side := p.side
    entryTime := p.entryTime
    exitTime := exitTime
    entryPrice := q.money p.entryPrice
    exitPrice := q.money fill
    quantity := q.money p.quantity
    notional := q.money p.notional
    margin := q.money p.margin
    leverage := settings.leverage
    exitReason := reason
    barsHeld := exitIndex - p.entryIndex
    grossPnl := q.money (grossPnl p fill)
    fees := q.money (tradeFees settings p fill)
    netPnl := q.money net
    returnPercent := q.percent (net / p.margin * 100)
    equityAfter := q.money equity
    maxAdverseExcursionPercent := q.percent (max adverse 0)
    maxFavourableExcursionPercent := q.percent (max favourable 0) }

def closePosition (p : OpenPosition) (rawPrice : Decimal) (reason : ExitReason) (exitTime : Timestamp) (exitIndex : Nat)
    (s : Simulation) : Simulation :=
  let equity := s.equity + tradeNet settings p (exitFill settings p rawPrice)
  { s with
    equity := equity
    trades := s.trades ++ [tradeOf q settings p rawPrice reason exitTime exitIndex equity] }

/-- The position that is opened on a side at a fill. -/
def enter (side : PositionSide) (bar : Candle) (index : Nat) (entryFill equity : Decimal) : OpenPosition :=
  let margin := equity * settings.positionSizePercent / 100
  let notional := margin * settings.leverage
  let long := decide (side = .long)
  { side := side
    entryTime := bar.openTime
    entryIndex := index
    entryPrice := entryFill
    quantity := notional / entryFill
    notional := notional
    margin := margin
    entryFee := notional * settings.feeRate
    stopPrice := settings.stopLossPercent.map fun percent =>
      if long then entryFill * (1 - percent / 100) else entryFill * (1 + percent / 100)
    targetPrice := settings.takeProfitPercent.map fun percent =>
      if long then entryFill * (1 + percent / 100) else entryFill * (1 - percent / 100)
    liquidationPrice :=
      if 1 < settings.leverage then
        some (if long then entryFill * (1 - 1 / settings.leverage) else entryFill * (1 + 1 / settings.leverage))
      else none
    trailExtreme := entryFill
    bestPrice := entryFill
    worstPrice := entryFill }

/-- A position that the pending side is not on is closed. -/
def exitFlipped (index : Nat) (bar : Candle) (pending : PositionSide) (s : Simulation) : Simulation :=
  match s.position with
  | some p =>
      if p.side ≠ pending then
        { closePosition q settings p bar.open_ .signalFlip bar.openTime index s with position := none }
      else s
  | none => s

/-- The pending side is entered where nothing is open. -/
def enterPending (index : Nat) (bar : Candle) (pending : PositionSide) (s : Simulation) : Simulation :=
  if s.position = none ∧ pending ≠ .flat ∧ 0 < s.equity then
    let entryFill := applySlippage bar.open_ pending true settings.slippageBps
    if 0 < entryFill then { s with position := some (enter settings pending bar index entryFill s.equity) } else s
  else s

/-- What the previous bar decided is executed at this bar's open. -/
def execute (index : Nat) (bar : Candle) (s : Simulation) : Simulation :=
  match s.pendingSide with
  | none => s
  | some pending =>
      { enterPending settings index bar pending (exitFlipped q settings index bar pending s) with pendingSide := none }

/-- The best and the worst price that the position has seen, with this bar's. -/
def withRange (bar : Candle) (p : OpenPosition) : OpenPosition :=
  { p with
    bestPrice := if p.side = .long then max p.bestPrice bar.high else min p.bestPrice bar.low
    worstPrice := if p.side = .long then min p.worstPrice bar.low else max p.worstPrice bar.high }

/-- The level of the trailing stop, of the bars before this one. -/
def trailLevel (p : OpenPosition) : Option Decimal :=
  settings.trailingStopPercent.map fun percent =>
    if p.side = .long then p.trailExtreme * (1 - percent / 100) else p.trailExtreme * (1 + percent / 100)

def withTrail (bar : Candle) (p : OpenPosition) : OpenPosition :=
  { p with trailExtreme := if p.side = .long then max p.trailExtreme bar.high else min p.trailExtreme bar.low }

/-- Which level, if any, this bar takes a position out at. -/
def triggered (bar : Candle) (p : OpenPosition) : Option (Decimal × ExitReason) :=
  resolveIntrabarExit p.side bar.high bar.low p.stopPrice p.targetPrice p.liquidationPrice (trailLevel settings p)

/-- The open position is managed against this bar's range. -/
def manage (index : Nat) (bar : Candle) (s : Simulation) : Simulation :=
  match s.position with
  | none => s
  | some p =>
      let p := withRange bar p
      match triggered settings bar p with
      | some (level, reason) =>
          { closePosition q settings p level reason bar.openTime index s with position := none }
      | none => { s with position := some (withTrail bar p) }

/-- What an open position is worth over its entry, down to minus its margin. -/
def unrealised (position : Option OpenPosition) (price : Decimal) : Decimal :=
  match position with
  | some p => max (grossPnl p price - p.entryFee) (-p.margin)
  | none => 0

/-- Equity is marked to this bar's close. -/
def mark (bar : Candle) (s : Simulation) : Simulation :=
  let marked := s.equity + unrealised s.position bar.close
  let peak := max s.peak marked
  let drawdown := if 0 < peak then (peak - marked) / peak * 100 else 0
  { s with
    peak := peak
    barsInPosition := if s.position.isSome then s.barsInPosition + 1 else s.barsInPosition
    curve := s.curve ++ [
      { time := bar.openTime
        equity := q.money marked
        drawdownPercent := q.percent (max drawdown 0)
        inPosition := s.position.isSome }] }

/-- This bar decides for the next one. -/
def decideNext (warmup : Nat) (biases : List (Option StrategyBias)) (last index : Nat) (s : Simulation) : Simulation :=
  if index < last ∧ warmup ≤ index then
    let desired := desiredSide biases[index]?.join settings
    let current := (s.position.map OpenPosition.side).getD .flat
    if desired ≠ current then { s with pendingSide := some desired } else s
  else s

def onBar (warmup : Nat) (biases : List (Option StrategyBias)) (last index : Nat) (bar : Candle) (s : Simulation) :
    Simulation :=
  decideNext settings warmup biases last index (mark q bar (manage q settings index bar (execute q settings index bar s)))

/-- The bars from an index on. -/
def onBars (warmup : Nat) (biases : List (Option StrategyBias)) (last : Nat) :
    Nat → List Candle → Simulation → Simulation
  | _, [], s => s
  | index, bar :: rest, s => onBars warmup biases last (index + 1) rest (onBar q settings warmup biases last index bar s)

def initial : Simulation where
  equity := settings.startingBalance
  peak := settings.startingBalance
  position := none
  pendingSide := none
  trades := []
  curve := []
  barsInPosition := 0

/-- A position that is still open is closed at the last bar's close. -/
def endOfData (candles : List Candle) (s : Simulation) : Simulation :=
  match s.position, candles.getLast? with
  | some p, some last => closePosition q settings p last.close .endOfData last.openTime (candles.length - 1) s
  | _, _ => s

end Simulation

section Metrics

/-- Break-even trades break a streak. -/
def longestRun (hit : Trade → Bool) (trades : List Trade) : Nat :=
  (trades.foldl (fun (longest, current) trade =>
    let current := if hit trade then current + 1 else 0
    (max longest current, current)) (0, 0)).1

def mean (values : List Decimal) : Decimal := values.sum / values.length

/-- The mean outcome in multiples of the risk that the configuration planned. -/
def averageR (q : Rounding) (trades : List Trade) (config : BacktestConfig) : Option Decimal := do
  let percent ← config.stopLossPercent
  guard (trades ≠ [])
  let multiples ← trades.mapM fun trade =>
    let plannedRisk := trade.notional * percent / 100
    if plannedRisk ≤ 0 then none else some (trade.netPnl / plannedRisk)
  return q.percent (mean multiples)

/-- The performance of the simulation, with nothing where a figure has no defined answer. -/
structure BacktestMetrics where
  totalTrades : Nat
  winningTrades : Nat
  losingTrades : Nat
  breakevenTrades : Nat
  winRatePercent : Option Decimal
  netPnl : Decimal
  grossProfit : Decimal
  grossLoss : Decimal
  totalFees : Decimal
  returnPercent : Decimal
  profitFactor : Option Decimal
  averageTrade : Option Decimal
  averageWin : Option Decimal
  averageLoss : Option Decimal
  largestWin : Option Decimal
  largestLoss : Option Decimal
  maxDrawdownPercent : Decimal
  maxDrawdownAbsolute : Decimal
  maxConsecutiveLosses : Nat
  maxConsecutiveWins : Nat
  averageR : Option Decimal
  exposurePercent : Decimal
  startingBalance : Decimal
  endingBalance : Decimal
  barsTested : Nat
  tradesOpenAtEnd : Nat
  deriving DecidableEq

def computeMetrics (q : Rounding) (trades : List Trade) (curve : List EquityPoint) (config : BacktestConfig)
    (barsInPosition tradesOpenAtEnd : Nat) : BacktestMetrics :=
  let wins := trades.filter fun trade => 0 < trade.netPnl
  let losses := trades.filter fun trade => trade.netPnl < 0
  let grossProfit := (wins.map Trade.netPnl).sum
  let grossLoss := -(losses.map Trade.netPnl).sum
  let netPnl := (trades.map Trade.netPnl).sum
  let ending := (curve.getLast?.map EquityPoint.equity).getD config.startingBalance
  let starting := config.startingBalance
  let count (trades : List Trade) : Decimal := trades.length
  { totalTrades := trades.length
    winningTrades := wins.length
    losingTrades := losses.length
    breakevenTrades := trades.length - wins.length - losses.length
    winRatePercent := if trades ≠ [] then some (q.percent (count wins / count trades * 100)) else none
    netPnl := q.money netPnl
    grossProfit := q.money grossProfit
    grossLoss := q.money grossLoss
    totalFees := q.money (trades.map Trade.fees).sum
    returnPercent := q.percent ((ending - starting) / starting * 100)
    profitFactor := if 0 < grossLoss then some (q.percent (grossProfit / grossLoss)) else none
    averageTrade := if trades ≠ [] then some (q.money (netPnl / count trades)) else none
    averageWin := if wins ≠ [] then some (q.money (grossProfit / count wins)) else none
    averageLoss := if losses ≠ [] then some (q.money (-grossLoss / count losses)) else none
    largestWin := (wins.map Trade.netPnl).max?.map q.money
    largestLoss := (losses.map Trade.netPnl).min?.map q.money
    maxDrawdownPercent := q.percent ((curve.map EquityPoint.drawdownPercent).max?.getD 0)
    maxDrawdownAbsolute := q.money (curve.foldl (fun (peak, most) point =>
      let peak := max peak point.equity
      (peak, max most (peak - point.equity))) (starting, 0)).2
    maxConsecutiveLosses := longestRun (fun trade => trade.netPnl < 0) trades
    maxConsecutiveWins := longestRun (fun trade => 0 < trade.netPnl) trades
    averageR := averageR q trades config
    exposurePercent := if curve ≠ [] then q.percent (barsInPosition / curve.length * 100) else 0
    startingBalance := q.money starting
    endingBalance := q.money ending
    barsTested := curve.length
    tradesOpenAtEnd := tradesOpenAtEnd }

/-- A complete run, with the whole of its equity curve. -/
structure BacktestResult where
  status : BacktestStatus
  detail : Option String := none
  metrics : Option BacktestMetrics := none
  trades : List Trade := []
  equityCurve : List EquityPoint := []
  firstBarTime : Option Timestamp := none
  lastBarTime : Option Timestamp := none
  warnings : List String := []
  deriving DecidableEq

def minTradesForMeaningfulMetrics : Nat := 20

def warningsOf (settings : BacktestConfig) (metrics : BacktestMetrics) : List String :=
  (if metrics.totalTrades = 0 then
      ["No trades were taken. The rules never aligned over this window; the metrics describe an untouched balance, " ++
        "not a strategy."]
    else if metrics.totalTrades < minTradesForMeaningfulMetrics then
      [s!"Only {metrics.totalTrades} trades. Below about {minTradesForMeaningfulMetrics} the win rate " ++
        "and profit factor describe a handful of coincidences rather than a strategy."]
    else []) ++
  (if metrics.tradesOpenAtEnd ≠ 0 then
      ["A position was still open when the data ended; it was closed at the last bar's close and is marked " ++
        "END_OF_DATA. That trade did not exit on a rule."]
    else []) ++
  (if 1 < settings.leverage then
      ["Leverage " ++ str settings.leverage ++ "x is a simulation input only. Liquidation is modelled optimistically, " ++
        "so leveraged results here are better than reality."]
    else [])

/-- The loop over all the candles. -/
def loop (q : Rounding) (candles : List Candle) (settings : BacktestConfig) (params : TrendMomentumParams) : Simulation :=
  onBars q settings (warmupBars params) (biasSeries candles params) (candles.length - 1) 0 candles (initial settings)

/-- The strategy simulated over candles that are closed, ascending and unique. -/
def simulate (q : Rounding) (candles : List Candle) (settings : BacktestConfig) (params : TrendMomentumParams) :
    BacktestResult :=
  let warmup := warmupBars params
  if candles.length < warmup + 2 then
    { status := .insufficientData
      detail := some (s!"Needs more than {warmup + 1} closed candles for the strategy to warm up and act; " ++
        s!"{candles.length} available") }
  else
    let looped := loop q candles settings params
    let ended := endOfData q settings candles looped
    let metrics := computeMetrics q ended.trades ended.curve settings ended.barsInPosition
      (if looped.position.isSome then 1 else 0)
    { status := .completed
      metrics := some metrics
      trades := ended.trades
      equityCurve := ended.curve
      firstBarTime := candles.head?.map Candle.openTime
      lastBarTime := candles.getLast?.map Candle.openTime
      warnings := warningsOf settings metrics }

/-- The program reports rounded figures. -/
def runBacktest (candles : List Candle) (settings : BacktestConfig) (params : TrendMomentumParams) : BacktestResult :=
  simulate quantized candles settings params

end Metrics

end Aetheris.Backtest
