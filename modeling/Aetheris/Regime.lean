import Aetheris.IndicatorLibrary
import Aetheris.TrendMomentum

namespace Aetheris.Regime

open Lib Money PaperRecords Indicators IndicatorLibrary TrendMomentum

def adxTrendMinimum : Decimal := 20

def atrHighPercent : Decimal := 3

def atrLowPercent : Decimal := 75 / 100

def bbWidthSqueezePercent : Decimal := 2

/-- One input of the classification, with what it was compared to. -/
structure RegimeMeasurement where
  name : String
  value : Option Decimal
  threshold : Option Decimal
  detail : String
  deriving DecidableEq

structure RegimeAssessment where
  regime : MarketRegime
  volatilityBand : VolatilityBand
  measurements : List RegimeMeasurement := []
  reason : String
  candlesUsed : Nat
  deriving DecidableEq

/-- The periods that the classifier reads, every one of them within its bounds. -/
structure RegimeParams where
  emaFast : Nat
  emaSlow : Nat
  adxPeriod : Nat
  atrPeriod : Nat
  bbPeriod : Nat
  emaFast_bounds : 2 ≤ emaFast ∧ emaFast ≤ 400
  emaSlow_bounds : 2 ≤ emaSlow ∧ emaSlow ≤ 400
  adxPeriod_bounds : 2 ≤ adxPeriod ∧ adxPeriod ≤ 200
  atrPeriod_bounds : 2 ≤ atrPeriod ∧ atrPeriod ≤ 200
  bbPeriod_bounds : 2 ≤ bbPeriod ∧ bbPeriod ≤ 400
  emaFast_lt_emaSlow : emaFast < emaSlow

def defaultRegimeParams : RegimeParams where
  emaFast := 21
  emaSlow := 55
  adxPeriod := 14
  atrPeriod := 14
  bbPeriod := 20
  emaFast_bounds := by decide
  emaSlow_bounds := by decide
  adxPeriod_bounds := by decide
  atrPeriod_bounds := by decide
  bbPeriod_bounds := by decide
  emaFast_lt_emaSlow := by decide

def atrSpec (period : Nat) : IndicatorSpec where
  key := "atr"
  name := "Average True Range"
  valueKeys := ["atr"]
  compute candles _ := [("atr", atr candles period)]
  warmup _ := period

def bollingerSpec (period : Nat) (deviations : Decimal) : IndicatorSpec where
  key := "bollinger"
  name := "Bollinger Bands"
  valueKeys := ["upper", "middle", "lower"]
  compute candles _ :=
    let b := bollingerBands candles period deviations
    [("upper", b.upper), ("middle", b.middle), ("lower", b.lower)]
  warmup _ := period - 1

/-- The parameters of the indicators, with the periods that are given and the defaults of the others. -/
def measured (emaPeriod adxPeriod : Nat) (hema : 2 ≤ emaPeriod ∧ emaPeriod ≤ 400)
    (hadx : 2 ≤ adxPeriod ∧ adxPeriod ≤ 200) : IndicatorParams where
  emaPeriod := emaPeriod
  rsiPeriod := 14
  adxPeriod := adxPeriod
  macdFast := 12
  macdSlow := 26
  macdSignal := 9
  emaPeriod_bounds := hema
  rsiPeriod_bounds := by decide
  adxPeriod_bounds := hadx
  macdFast_bounds := by decide
  macdSlow_bounds := by decide
  macdSignal_bounds := by decide
  macdFast_lt_macdSlow := by decide

/-- The band of the volatility. -/
def volatilityBandOf (atrPercent : Option Decimal) : VolatilityBand :=
  match atrPercent with
  | none => .unknown
  | some percent => if atrHighPercent ≤ percent then .high else if percent ≤ atrLowPercent then .low else .normal

/-- What was measured at the last candle. -/
structure Measured where
  emaFast : Option Decimal
  emaSlow : Option Decimal
  adx : Option Decimal
  atrPercent : Option Decimal
  bandWidth : Option Decimal

def measure (candles : List Candle) (lastClose : Decimal) (params : RegimeParams) : Measured :=
  let fastParams := measured params.emaFast params.adxPeriod params.emaFast_bounds params.adxPeriod_bounds
  let slowParams := measured params.emaSlow 14 params.emaSlow_bounds (by decide)
  let bollinger := buildResult (bollingerSpec params.bbPeriod 2) candles fastParams
  { emaFast := latest (buildResult emaSpec candles fastParams) "ema"
    emaSlow := latest (buildResult emaSpec candles slowParams) "ema"
    adx := latest (buildResult adxSpec candles fastParams) "adx"
    atrPercent := do
      let value ← latest (buildResult (atrSpec params.atrPeriod) candles fastParams) "atr"
      if 0 < lastClose then some (value / lastClose * 100) else none
    bandWidth := do
      let upper ← latest bollinger "upper"
      let lower ← latest bollinger "lower"
      let middle ← latest bollinger "middle"
      if 0 < middle then some ((upper - lower) / middle * 100) else none }

def measurements (m : Measured) (params : RegimeParams) : List RegimeMeasurement :=
  [{ name := "trend_strength"
     value := m.adx
     threshold := some adxTrendMinimum
     detail := match m.adx with
       | some adx => "ADX " ++ fixed 2 adx ++ " against a trend minimum of " ++ str adxTrendMinimum
       | none => "ADX has not warmed up over the supplied candles" },
   { name := "trend_direction"
     value := m.emaFast
     threshold := m.emaSlow
     detail := match m.emaFast, m.emaSlow with
       | some fast, some slow =>
           s!"EMA({params.emaFast}) " ++ fixed 8 fast ++ s!" against EMA({params.emaSlow}) " ++ fixed 8 slow
       | _, _ => "One or both EMA legs have not warmed up" },
   { name := "volatility"
     value := m.atrPercent
     threshold := some atrHighPercent
     detail := match m.atrPercent with
       | some percent => "ATR is " ++ fixed 4 percent ++ "% of last close; high at " ++ str atrHighPercent ++
           "%, low at " ++ str atrLowPercent ++ "%"
       | none => "ATR has not warmed up, or the last close is not positive" },
   { name := "band_width"
     value := m.bandWidth
     threshold := some bbWidthSqueezePercent
     detail := match m.bandWidth with
       | some width => "Bollinger width is " ++ fixed 4 width ++ "% of the middle band; a squeeze reads below " ++
           str bbWidthSqueezePercent ++ "%"
       | none => "Bollinger Bands have not warmed up" }]

/-- The regime that the measurements say, with the reason. -/
def ruled (adx emaFast emaSlow atrPercent : Decimal) : MarketRegime × String :=
  let adxText := fixed 2 adx
  let minimum := str adxTrendMinimum
  let atrText := fixed 4 atrPercent
  if adxTrendMinimum ≤ adx ∧ emaSlow < emaFast then
    (.trendUp, s!"ADX {adxText} meets the {minimum} minimum and the fast EMA is above the slow one, so direction is " ++
      "readable and upward.")
  else if adxTrendMinimum ≤ adx ∧ emaFast < emaSlow then
    (.trendDown, s!"ADX {adxText} meets the {minimum} minimum and the fast EMA is below the slow one, so direction is " ++
      "readable and downward.")
  else if atrHighPercent ≤ atrPercent then
    (.highVolatility, s!"No readable trend (ADX {adxText} below {minimum}), and ATR at {atrText}" ++
      "% of price is at or above the " ++ str atrHighPercent ++ "% high-volatility threshold.")
  else if atrPercent ≤ atrLowPercent then
    (.lowVolatility, s!"No readable trend (ADX {adxText} below {minimum}), and ATR at {atrText}" ++
      "% of price is at or below the " ++ str atrLowPercent ++ "% low-volatility threshold.")
  else
    (.range, s!"No readable trend (ADX {adxText} below {minimum}) and ATR at {atrText}" ++
      "% of price sits between the volatility thresholds.")

/-- The market state at the last candle. A measurement that is missing is never defaulted. -/
def classifyRegime (candles : List Candle) (params : RegimeParams) : RegimeAssessment :=
  match candles.getLast? with
  | none =>
      { regime := .unknown
        volatilityBand := .unknown
        reason := "No candles were supplied, so nothing could be measured."
        candlesUsed := 0 }
  | some last =>
      let m := measure candles last.close params
      let assessment : RegimeAssessment :=
        { regime := .unknown
          volatilityBand := volatilityBandOf m.atrPercent
          measurements := measurements m params
          reason := ""
          candlesUsed := candles.length }
      match m.adx, m.emaFast, m.emaSlow, m.atrPercent with
      | some adx, some emaFast, some emaSlow, some atrPercent =>
          let (regime, reason) := ruled adx emaFast emaSlow atrPercent
          { assessment with regime := regime, reason := reason }
      | _, _, _, _ =>
          let missing := (if m.adx.isNone then ["ADX"] else []) ++
            (if m.emaSlow.isNone ∨ m.emaFast.isNone then ["EMA pair"] else []) ++
            (if m.atrPercent.isNone then ["ATR"] else [])
          { assessment with
            reason := "Unclassified: " ++ ", ".intercalate missing ++ " could not be measured over " ++
              s!"{candles.length} candles. An unmeasured input is never defaulted." }

end Aetheris.Regime
