import Aetheris.Autonomous
import Aetheris.IndicatorCausality

namespace Aetheris.TrendMomentum

open Lib Money Clock PaperRecords Autonomous Indicators

inductive IndicatorStatus
  | ready | warmingUp | insufficientData | unavailable | error
  deriving DecidableEq, Repr

/-- The parameters of the indicators that the strategy asks for. -/
structure IndicatorParams where
  emaPeriod : Nat
  rsiPeriod : Nat
  adxPeriod : Nat
  macdFast : Nat
  macdSlow : Nat
  macdSignal : Nat
  emaPeriod_bounds : 2 ≤ emaPeriod ∧ emaPeriod ≤ 400
  rsiPeriod_bounds : 2 ≤ rsiPeriod ∧ rsiPeriod ≤ 200
  adxPeriod_bounds : 2 ≤ adxPeriod ∧ adxPeriod ≤ 200
  macdFast_bounds : 2 ≤ macdFast ∧ macdFast ≤ 200
  macdSlow_bounds : 3 ≤ macdSlow ∧ macdSlow ≤ 400
  macdSignal_bounds : 2 ≤ macdSignal ∧ macdSignal ≤ 200
  macdFast_lt_macdSlow : macdFast < macdSlow

abbrev Lines := List (String × Series)

def Lines.line (lines : Lines) (key : String) : Series := ((lines.find? fun line => line.1 = key).map Prod.snd).getD []

structure IndicatorSpec where
  key : String
  name : String
  valueKeys : List String
  compute : List Candle → IndicatorParams → Lines
  /-- Bars consumed before the indicator produces its first value. -/
  warmup : IndicatorParams → Nat

def emaSpec : IndicatorSpec where
  key := "ema"
  name := "Exponential Moving Average"
  valueKeys := ["ema"]
  compute candles p := [("ema", ema ((closes candles).map some) p.emaPeriod)]
  warmup p := p.emaPeriod - 1

def rsiSpec : IndicatorSpec where
  key := "rsi"
  name := "Relative Strength Index"
  valueKeys := ["rsi"]
  compute candles p := [("rsi", rsi candles p.rsiPeriod)]
  warmup p := p.rsiPeriod

def macdSpec : IndicatorSpec where
  key := "macd"
  name := "MACD"
  valueKeys := ["macd", "signal", "histogram"]
  compute candles p :=
    let m := macd candles p.macdFast p.macdSlow p.macdSignal
    [("macd", m.macd), ("signal", m.signal), ("histogram", m.histogram)]
  warmup p := p.macdSlow + p.macdSignal - 2

def adxSpec : IndicatorSpec where
  key := "adx"
  name := "Average Directional Index"
  valueKeys := ["adx", "plus_di", "minus_di"]
  compute candles p :=
    let a := adx candles p.adxPeriod
    [("adx", a.adx), ("plus_di", a.plusDi), ("minus_di", a.minusDi)]
  warmup p := 2 * p.adxPeriod - 1

/-- What the strategy's keys name in the registry. -/
def indicators : List IndicatorSpec := [emaSpec, rsiSpec, macdSpec, adxSpec]

structure IndicatorResult where
  indicator : String
  name : String
  status : IndicatorStatus
  detail : Option String := none
  valueKeys : List String
  latest : Option (List (String × Option Decimal)) := none
  latestTime : Option Timestamp := none
  warmupBars : Nat
  candlesUsed : Nat

def buildResult (spec : IndicatorSpec) (candles : List Candle) (params : IndicatorParams) : IndicatorResult :=
  let warmup := spec.warmup params
  let count := candles.length
  let result : IndicatorResult :=
    { indicator := spec.key, name := spec.name, status := .insufficientData, valueKeys := spec.valueKeys
      warmupBars := warmup, candlesUsed := count }
  if count ≤ warmup then
    { result with detail := some s!"{spec.name} needs more than {warmup} closed candles; {count} available" }
  else
    let lines := spec.compute candles params
    let last := count - 1
    let latest := spec.valueKeys.map fun key => (key, valueAt (lines.line key) last)
    if latest.all fun value => value.2.isSome then
      { result with
        status := .ready
        latest := some latest
        latestTime := candles[last]?.map Candle.openTime }
    else
      let missing := ((latest.filter fun value => value.2.isNone).map Prod.fst).mergeSort
      let anyHistory := spec.valueKeys.any fun key => (lines.line key).any Option.isSome
      { result with
        status := .warmingUp
        detail := some (if anyHistory then ", ".intercalate missing ++ " undefined at the latest candle"
          else s!"{spec.name} is still warming up ({warmup} bars required)") }

/-- The named indicators over the candles; unknown keys are skipped. -/
def calculateIndicators (candles : List Candle) (keys : List String) (params : IndicatorParams) : List IndicatorResult :=
  keys.filterMap fun key =>
    (indicators.find? fun spec => spec.key = key).map fun spec => buildResult spec candles params

/-- The strategy's configuration, every value within its bounds. -/
structure TrendMomentumParams where
  emaFast : Nat
  emaSlow : Nat
  rsiPeriod : Nat
  rsiOverbought : Decimal
  rsiOversold : Decimal
  adxPeriod : Nat
  adxMinimum : Decimal
  macdFast : Nat
  macdSlow : Nat
  macdSignal : Nat
  emaFast_bounds : 2 ≤ emaFast ∧ emaFast ≤ 200
  emaSlow_bounds : 3 ≤ emaSlow ∧ emaSlow ≤ 400
  rsiPeriod_bounds : 2 ≤ rsiPeriod ∧ rsiPeriod ≤ 200
  rsiOverbought_bounds : 50 < rsiOverbought ∧ rsiOverbought < 100
  rsiOversold_bounds : 0 < rsiOversold ∧ rsiOversold < 50
  adxPeriod_bounds : 2 ≤ adxPeriod ∧ adxPeriod ≤ 200
  adxMinimum_bounds : 0 ≤ adxMinimum ∧ adxMinimum ≤ 100
  macdFast_bounds : 2 ≤ macdFast ∧ macdFast ≤ 200
  macdSlow_bounds : 3 ≤ macdSlow ∧ macdSlow ≤ 400
  macdSignal_bounds : 2 ≤ macdSignal ∧ macdSignal ≤ 200
  emaFast_lt_emaSlow : emaFast < emaSlow
  macdFast_lt_macdSlow : macdFast < macdSlow

/-- A parameter set of the indicators with one leg of the pair of averages. -/
def indicatorParams (params : TrendMomentumParams) (emaPeriod : Nat) (h : 2 ≤ emaPeriod ∧ emaPeriod ≤ 400) :
    IndicatorParams where
  emaPeriod := emaPeriod
  rsiPeriod := params.rsiPeriod
  adxPeriod := params.adxPeriod
  macdFast := params.macdFast
  macdSlow := params.macdSlow
  macdSignal := params.macdSignal
  emaPeriod_bounds := h
  rsiPeriod_bounds := params.rsiPeriod_bounds
  adxPeriod_bounds := params.adxPeriod_bounds
  macdFast_bounds := params.macdFast_bounds
  macdSlow_bounds := params.macdSlow_bounds
  macdSignal_bounds := params.macdSignal_bounds
  macdFast_lt_macdSlow := params.macdFast_lt_macdSlow

def requiredIndicatorParams (params : TrendMomentumParams) : IndicatorParams × IndicatorParams :=
  (indicatorParams params params.emaFast ⟨params.emaFast_bounds.1, params.emaFast_bounds.2.trans (by decide)⟩,
    indicatorParams params params.emaSlow ⟨(by decide : 2 ≤ 3).trans params.emaSlow_bounds.1, params.emaSlow_bounds.2⟩)

/-- Bars needed before every required indicator has a value. -/
def warmupBars (params : TrendMomentumParams) : Nat :=
  max (params.emaSlow - 1) (max params.rsiPeriod
    (max (2 * params.adxPeriod - 1) (params.macdSlow + params.macdSignal - 2)))

def latest (result : IndicatorResult) (key : String) : Option Decimal :=
  if result.status = .ready then
    result.latest.bind fun values => ((values.find? fun value => value.1 = key).map Prod.snd).join
  else none

/-- The figures that the rule set reads, at one bar. -/
structure IndicatorValues where
  emaFast : Decimal
  emaSlow : Decimal
  adx : Decimal
  rsi : Decimal
  histogram : Decimal

def evaluateConditions (values : IndicatorValues) (params : TrendMomentumParams) :
    List ConditionOutcome × List ConditionOutcome × StrategyBias :=
  let trendUp := decide (values.emaSlow < values.emaFast)
  let trendDown := decide (values.emaFast < values.emaSlow)
  let hasTrend := decide (params.adxMinimum ≤ values.adx)
  let bullishMomentum := decide (50 < values.rsi ∧ values.rsi < params.rsiOverbought)
  let bearishMomentum := decide (params.rsiOversold < values.rsi ∧ values.rsi < 50)
  let trend (satisfied : Bool) (side : String) : ConditionOutcome :=
    { name := "trend"
      satisfied := satisfied
      detail := s!"EMA({params.emaFast}) " ++ (if satisfied then s!"is {side} " else s!"is not {side} ") ++
        s!"EMA({params.emaSlow})"
      values := [("ema_fast", values.emaFast), ("ema_slow", values.emaSlow)] }
  let trendStrength : ConditionOutcome :=
    { name := "trend_strength"
      satisfied := hasTrend
      detail := "ADX " ++ fixed 2 values.adx ++ (if hasTrend then " meets" else " is below") ++ " the minimum " ++
        str params.adxMinimum
      values := [("adx", values.adx), ("adx_minimum", params.adxMinimum)] }
  let momentum (satisfied : Bool) (band : String) : String :=
    "RSI " ++ fixed 2 values.rsi ++ (if satisfied then " is within " else " is outside ") ++ band
  let histogram (satisfied : Bool) (sign : String) : ConditionOutcome :=
    { name := "macd"
      satisfied := satisfied
      detail := "MACD histogram " ++ fixed 6 values.histogram ++ " is " ++ (if satisfied then sign else "not " ++ sign)
      values := [("histogram", values.histogram)] }
  let longConditions : List ConditionOutcome :=
    [trend trendUp "above", trendStrength,
      { name := "momentum"
        satisfied := bullishMomentum
        detail := momentum bullishMomentum ("the bullish band (50, " ++ str params.rsiOverbought ++ ")")
        values := [("rsi", values.rsi), ("upper", params.rsiOverbought)] },
      histogram (decide (0 < values.histogram)) "positive"]
  let shortConditions : List ConditionOutcome :=
    [trend trendDown "below", trendStrength,
      { name := "momentum"
        satisfied := bearishMomentum
        detail := momentum bearishMomentum ("the bearish band (" ++ str params.rsiOversold ++ ", 50)")
        values := [("rsi", values.rsi), ("lower", params.rsiOversold)] },
      histogram (decide (values.histogram < 0)) "negative"]
  let bias : StrategyBias :=
    if longConditions.all ConditionOutcome.satisfied then .longBias
    else if shortConditions.all ConditionOutcome.satisfied then .shortBias
    else .neutral
  (longConditions, shortConditions, bias)

def required (emaFast emaSlow adx rsi histogram : Option Decimal) : Option IndicatorValues := do
  return ⟨← emaFast, ← emaSlow, ← adx, ← rsi, ← histogram⟩

/-- The figures that the rule set needs, or nothing if any of them is unready. -/
def computeIndicatorValues (candles : List Candle) (params : TrendMomentumParams) : Option IndicatorValues :=
  let (fastParams, slowParams) := requiredIndicatorParams params
  let fastResults := calculateIndicators candles ["ema", "adx", "rsi", "macd"] fastParams
  let slowResults := calculateIndicators candles ["ema"] slowParams
  let byKey (key value : String) : Option Decimal :=
    (fastResults.find? fun result => result.indicator = key).bind fun result => latest result value
  required (byKey "ema" "ema") (slowResults.head?.bind fun result => latest result "ema") (byKey "adx" "adx")
    (byKey "rsi" "rsi") (byKey "macd" "histogram")

end Aetheris.TrendMomentum
