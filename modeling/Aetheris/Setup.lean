import Aetheris.Lib.FixedPoint
import Aetheris.Regime

namespace Aetheris.Setup

open Lib Money Clock PaperRecords Autonomous Indicators TrendMomentum Regime

section Domain

/-- Which side the rules point to, if any. -/
inductive SetupDirection
  | long | short | noSignal
  deriving DecidableEq, Repr

def SetupDirection.value : SetupDirection → String
  | .long => "LONG"
  | .short => "SHORT"
  | .noSignal => "NO_SIGNAL"

/-- Whether a reading may be acted on at all. -/
inductive SetupStatus
  | actionable | noActionableSetup | insufficientData | stale | unavailable
  deriving DecidableEq, Repr

/-- How the stop level is derived. -/
inductive StopModel
  | fixedPercent | atr | structural
  deriving DecidableEq, Repr

def StopModel.value : StopModel → String
  | .fixedPercent => "FIXED_PERCENT"
  | .atr => "ATR"
  | .structural => "STRUCTURE"

/-- How stops and targets are derived, every value within its bounds. -/
structure SetupParams where
  stopModel : StopModel
  stopPercent : Decimal
  atrMultiple : Decimal
  structureLookback : Nat
  takeProfitR : Decimal
  stopPercent_bounds : 0 < stopPercent ∧ stopPercent < 90
  atrMultiple_bounds : 0 < atrMultiple ∧ atrMultiple ≤ 10
  structureLookback_bounds : 2 ≤ structureLookback ∧ structureLookback ≤ 500
  takeProfitR_bounds : 0 < takeProfitR ∧ takeProfitR ≤ 20

def defaultSetupParams : SetupParams where
  stopModel := .atr
  stopPercent := 2
  atrMultiple := 15 / 10
  structureLookback := 20
  takeProfitR := 2
  stopPercent_bounds := by norm_num
  atrMultiple_bounds := by norm_num
  structureLookback_bounds := by decide
  takeProfitR_bounds := by norm_num

/-- Levels that are derived from a price. -/
structure RiskReward where
  entryPrice : Decimal
  stopPrice : Decimal
  takeProfitPrice : Decimal
  riskPerUnit : Decimal
  rewardPerUnit : Decimal
  riskRewardRatio : Decimal
  stopModel : StopModel
  stopDistancePercent : Decimal
  takeProfitRMultiple : Decimal
  deriving DecidableEq

structure SetupScore where
  value : Decimal
  components : List SetupScoreComponent
  deriving DecidableEq

/-- One strategy's reading of one instrument. -/
structure TradeSetup where
  status : SetupStatus
  direction : SetupDirection
  score : Option SetupScore := none
  riskReward : Option RiskReward := none
  regime : Option RegimeAssessment := none
  conditions : List ConditionOutcome := []
  opposingConditions : List ConditionOutcome := []
  detail : String
  candlesUsed : Nat
  lastCandleTime : Option Timestamp
  dataSource : Option String
  dataStatus : Option String
  dataAgeSeconds : Option Decimal
  evaluatedAt : Option Timestamp
  deriving DecidableEq

end Domain

section Levels

def volumeBaselineBars : Nat := 20

/-- The last so many bars, without the very last one. -/
def trailing (candles : List Candle) (bars : Nat) : List Candle := candles.dropLast.drop (candles.length - 1 - bars)

/-- The swing extreme over the lookback, without the bar that gave the signal. -/
def structureLevel (candles : List Candle) (lookback : Nat) (direction : SetupDirection) : Option Decimal :=
  let window := trailing candles lookback
  if direction = .long then (window.map Candle.low).min? else (window.map Candle.high).max?

/-- Where the stop lies, if there is one. -/
def stopLevel (candles : List Candle) (entry : Decimal) (direction : SetupDirection) (params : SetupParams)
    (atrPercent : Option Decimal) : Option Decimal :=
  let away (offset : Decimal) : Decimal := if direction = .long then entry - offset else entry + offset
  match params.stopModel with
  | .fixedPercent => some (away (entry * params.stopPercent / 100))
  | .atr =>
      match atrPercent with
      | none => none
      | some percent => if percent ≤ 0 then none else some (away (entry * (percent * params.atrMultiple) / 100))
  | .structural => structureLevel candles params.structureLookback direction

/-- A direction turned into levels, or nothing where no safe level is there to be derived. -/
def deriveRiskReward (candles : List Candle) (direction : SetupDirection) (params : SetupParams)
    (atrPercent : Option Decimal) : Option RiskReward := do
  guard (direction ≠ .noSignal)
  let last ← candles.getLast?
  let entry := last.close
  guard (0 < entry)
  let stop ← stopLevel candles entry direction params atrPercent
  guard (0 < stop)
  guard (¬ (direction = .long ∧ entry ≤ stop))
  guard (¬ (direction = .short ∧ stop ≤ entry))
  let risk := |entry - stop|
  guard (0 < risk)
  let reward := risk * params.takeProfitR
  let target := if direction = .long then entry + reward else entry - reward
  guard (0 < target)
  return {
    entryPrice := entry
    stopPrice := stop
    takeProfitPrice := target
    riskPerUnit := risk
    rewardPerUnit := reward
    riskRewardRatio := reward / risk
    stopModel := params.stopModel
    stopDistancePercent := risk / entry * 100
    takeProfitRMultiple := params.takeProfitR }

end Levels

section Score

def clampUnit (value : Decimal) : Decimal := if value < 0 then 0 else if 1 < value then 1 else value

def roundCent (value : Decimal) : Decimal := FixedPoint.halfUp 100 value

def component (name : String) (weight normalized : Decimal) (raw : Option Decimal) (detail : String) :
    SetupScoreComponent where
  name := name
  rawValue := raw
  normalized := clampUnit normalized
  weight := weight
  contribution := roundCent (clampUnit normalized * weight * 100)
  detail := detail

def atrPercentOf (assessment : RegimeAssessment) : Option Decimal :=
  (assessment.measurements.find? fun measurement => measurement.name = "volatility").bind RegimeMeasurement.value

/-- The last bar's volume against the mean of the bars before it. -/
def volumeRatio (candles : List Candle) : Option Decimal := do
  guard (2 ≤ candles.length)
  let window := trailing candles volumeBaselineBars
  let total := (window.map Candle.volume).sum
  guard (0 < total)
  let last ← candles.getLast?
  return last.volume / (total / window.length)

/-- How well the regime corroborates the direction. -/
def regimeAgreement (regime : MarketRegime) (direction : SetupDirection) : Decimal × String :=
  let side := direction.value
  let name := regime.value
  if regime = .unknown then (0, "Regime could not be classified, so it corroborates nothing.")
  else if (regime = .trendUp ∧ direction = .long) ∨ (regime = .trendDown ∧ direction = .short) then
    (1, s!"Regime {name} agrees with a {side} setup.")
  else if (regime = .trendDown ∧ direction = .long) ∨ (regime = .trendUp ∧ direction = .short) then
    (0, s!"Regime {name} directly opposes a {side} setup.")
  else (1 / 2, s!"Regime {name} is non-directional, so it neither confirms nor opposes.")

/-- Full marks inside the workable band, less outside it. -/
def volatilityFitness (atrPercent : Option Decimal) : Decimal × String :=
  match atrPercent with
  | none => (0, "ATR could not be measured, so volatility fitness is unscored.")
  | some percent =>
      let measured := "ATR " ++ fixed 4 percent ++ "% "
      if percent ≤ 0 then (0, "ATR could not be measured, so volatility fitness is unscored.")
      else if percent < atrLowPercent then
        (percent / atrLowPercent, measured ++ "is below the " ++ str atrLowPercent ++ "% floor: little room to move.")
      else if atrHighPercent < percent then
        (clampUnit (1 - (percent - atrHighPercent) / atrHighPercent), measured ++ "is above the " ++
          str atrHighPercent ++ "% ceiling: a stop here sits inside ordinary noise.")
      else
        (1, measured ++ "sits inside the workable " ++ str atrLowPercent ++ "%-" ++ str atrHighPercent ++ "% band.")

/-- How many of the named conditions hold. -/
def hits (conditions : List ConditionOutcome) (names : List String) : Nat :=
  (names.filter fun name => conditions.any fun condition => condition.name = name ∧ condition.satisfied).length

/-- The weighted sum of the six components. -/
def score (conditions : List ConditionOutcome) (regime : RegimeAssessment) (direction : SetupDirection)
    (riskReward : RiskReward) (atrPercent volumeRatio : Option Decimal) : SetupScore :=
  let trendHits := hits conditions ["trend", "trend_strength"]
  let momentumHits := hits conditions ["momentum", "macd"]
  let (regimeNorm, regimeDetail) := regimeAgreement regime.regime direction
  let (volatilityNorm, volatilityDetail) := volatilityFitness atrPercent
  let (volumeNorm, volumeDetail) :=
    match volumeRatio with
    | none => ((0 : Decimal), "Volume baseline unavailable, so this component contributes nothing.")
    | some ratio => (clampUnit (ratio / (15 / 10)), "Last bar's volume is " ++ fixed 3 ratio ++
        s!"x its {volumeBaselineBars}-bar trailing baseline; 1.5x reads as fully confirmed.")
  let components :=
    [component "trend_alignment" (25 / 100) (trendHits / 2) (some trendHits)
      s!"{trendHits} of 2 trend rules satisfied (direction and ADX gate).",
     component "momentum_alignment" (20 / 100) (momentumHits / 2) (some momentumHits)
      s!"{momentumHits} of 2 momentum rules satisfied (RSI band and MACD histogram).",
     component "regime_agreement" (20 / 100) regimeNorm none regimeDetail,
     component "risk_reward" (20 / 100) (clampUnit (riskReward.riskRewardRatio / 3)) (some riskReward.riskRewardRatio)
      ("Risk/reward " ++ fixed 3 riskReward.riskRewardRatio ++ " against a 3R reference for full marks."),
     component "volatility_fitness" (10 / 100) volatilityNorm atrPercent volatilityDetail,
     component "volume_confirmation" (5 / 100) volumeNorm volumeRatio volumeDetail]
  { value := roundCent (components.map SetupScoreComponent.contribution).sum, components := components }

end Score

section Building

/-- Provenance of the candles that an evaluation is based on. -/
structure DataContext where
  symbol : String
  timeframe : Timeframe
  source : String
  dataStatus : String
  ageSeconds : Option Decimal
  deriving DecidableEq

theorem emaFast_within (params : TrendMomentumParams) : 2 ≤ params.emaFast ∧ params.emaFast ≤ 400 :=
  ⟨params.emaFast_bounds.1, params.emaFast_bounds.2.trans (by decide)⟩

theorem emaSlow_within (params : TrendMomentumParams) : 2 ≤ params.emaSlow ∧ params.emaSlow ≤ 400 :=
  ⟨(by decide : 2 ≤ 3).trans params.emaSlow_bounds.1, params.emaSlow_bounds.2⟩

def regimeParams (params : TrendMomentumParams) : RegimeParams where
  emaFast := params.emaFast
  emaSlow := params.emaSlow
  adxPeriod := params.adxPeriod
  atrPeriod := 14
  bbPeriod := 20
  emaFast_bounds := emaFast_within params
  emaSlow_bounds := emaSlow_within params
  adxPeriod_bounds := params.adxPeriod_bounds
  atrPeriod_bounds := defaultRegimeParams.atrPeriod_bounds
  bbPeriod_bounds := defaultRegimeParams.bbPeriod_bounds
  emaFast_lt_emaSlow := params.emaFast_lt_emaSlow

/-- The fields that every outcome has, whichever it is. -/
def emit (candles : List Candle) (context : DataContext) (now : Timestamp) (status : SetupStatus)
    (direction : SetupDirection) (detail : String) : TradeSetup where
  status := status
  direction := direction
  detail := detail
  candlesUsed := candles.length
  lastCandleTime := candles.getLast?.map Candle.closeTime
  dataSource := some context.source
  dataStatus := some context.dataStatus
  dataAgeSeconds := context.ageSeconds
  evaluatedAt := some now

/-- What is made of a direction that the rules call. -/
def directed (candles : List Candle) (context : DataContext) (now : Timestamp) (setupParams : SetupParams)
    (regime : RegimeAssessment) (direction : SetupDirection) (conditions opposing : List ConditionOutcome) : TradeSetup :=
  let side := direction.value
  let model := setupParams.stopModel.value
  let atrPercent := atrPercentOf regime
  match deriveRiskReward candles direction setupParams atrPercent with
  | none =>
      { emit candles context now .noActionableSetup direction
          (s!"The rule set reports a {side} bias, but no safe stop could be derived under the {model} model. " ++
            "No level is invented to fill the gap, so there is nothing actionable here.") with
        regime := some regime
        conditions := conditions
        opposingConditions := opposing }
  | some riskReward =>
      let found := score conditions regime direction riskReward atrPercent (volumeRatio candles)
      { emit candles context now .actionable direction
          (s!"All four {side} rules hold. Setup score " ++ fixed 2 found.value ++
            " of 100 measures rule alignment, not a probability of profit.") with
        score := some found
        riskReward := some riskReward
        regime := some regime
        conditions := conditions
        opposingConditions := opposing }

/-- One instrument evaluated: a direction with its levels, or a named status without one. -/
def buildSetup (candles : List Candle) (context : DataContext) (now : Timestamp) (params : TrendMomentumParams)
    (setupParams : SetupParams) : TradeSetup :=
  match computeIndicatorValues candles params with
  | none =>
      emit candles context now .insufficientData .noSignal
        (s!"At least one required indicator has not warmed up over {candles.length} candles. " ++
          "No value is substituted for a missing one.")
  | some values =>
      let (longConditions, shortConditions, bias) := evaluateConditions values params
      let regime := classifyRegime candles (regimeParams params)
      match bias with
      | .longBias => directed candles context now setupParams regime .long longConditions shortConditions
      | .shortBias => directed candles context now setupParams regime .short shortConditions longConditions
      | .neutral =>
          let longMet := (longConditions.filter ConditionOutcome.satisfied).length
          let shortMet := (shortConditions.filter ConditionOutcome.satisfied).length
          { emit candles context now .noActionableSetup .noSignal
              (s!"The rule set is NEUTRAL: {longMet}/4 long and {shortMet}/4 short conditions hold, and this strategy " ++
                "requires all four. Partial agreement is not a signal.") with
            regime := some regime
            conditions := longConditions
            opposingConditions := shortConditions }

/-- The setup of a live answer, behind the gate on its freshness. -/
def evaluateSetup (candles : List Candle) (context : DataContext) (now : Timestamp) (params : TrendMomentumParams)
    (setupParams : SetupParams) : TradeSetup :=
  let status := context.dataStatus
  if status ≠ "OK" then
    emit candles context now .stale .noSignal
      s!"Candle data is {status}; no setup is reported from data that is not current."
  else if context.ageSeconds = none then
    emit candles context now .stale .noSignal
      ("Candle freshness could not be verified (the venue supplied no event timestamp), so no setup is reported. " ++
        "An unverifiable age is not freshness.")
  else buildSetup candles context now params setupParams

end Building

end Aetheris.Setup
