import Aetheris.Intelligence
import Aetheris.Setup

namespace Aetheris.Brains

open Lib Money Clock Enums RiskEngine PaperRecords Autonomous Indicators IndicatorLibrary TrendMomentum Regime Setup
  Intelligence

section Observation

/-- Within this fraction of the way from entry to target, the target counts as approaching. -/
def targetProximity : Decimal := 80 / 100

def stopProximityR : Decimal := 25 / 100

def volumeFade : Decimal := 60 / 100

theorem oscillator_default : 2 ≤ 14 ∧ 14 ≤ 200 := by decide

theorem macdFast_default : 2 ≤ 12 ∧ 12 ≤ 200 := by decide

theorem macdSlow_default : 3 ≤ 26 ∧ 26 ≤ 400 := by decide

theorem macdSignal_default : 2 ≤ 9 ∧ 9 ≤ 200 := by decide

theorem macdFast_lt_default : 12 < 26 := by decide

def defaultTrendMomentumParams : TrendMomentumParams where
  emaFast := 21
  emaSlow := 55
  rsiPeriod := 14
  rsiOverbought := 70
  rsiOversold := 30
  adxPeriod := 14
  adxMinimum := 20
  macdFast := 12
  macdSlow := 26
  macdSignal := 9
  emaFast_bounds := by decide
  emaSlow_bounds := by decide
  rsiPeriod_bounds := oscillator_default
  rsiOverbought_bounds := by norm_num
  rsiOversold_bounds := by norm_num
  adxPeriod_bounds := oscillator_default
  adxMinimum_bounds := by norm_num
  macdFast_bounds := macdFast_default
  macdSlow_bounds := macdSlow_default
  macdSignal_bounds := macdSignal_default
  emaFast_lt_emaSlow := defaultRegimeParams.emaFast_lt_emaSlow
  macdFast_lt_macdSlow := macdFast_lt_default

/-- Everything the brains are allowed to see. -/
structure PositionObservation where
  position : PaperPosition
  metrics : PositionMetrics
  now : Timestamp
  candles : Option (List Candle) := none
  regime : Option RegimeAssessment := none
  strategyParams : TrendMomentumParams := defaultTrendMomentumParams
  riskLock : RiskLockState := .none
  riskLockReason : Option String := none
  unreconciledOrders : Nat := 0

def PositionObservation.isLong (observation : PositionObservation) : Bool := observation.position.side = .long

def PositionObservation.mark (observation : PositionObservation) : Option Decimal := observation.position.markPrice

def RiskLockState.value : RiskLockState → String
  | .none => "NONE"
  | .dailyProfitTarget => "DAILY_PROFIT_TARGET"
  | .dailyLossLimit => "DAILY_LOSS_LIMIT"
  | .emergencyStop => "EMERGENCY_STOP"

def VolatilityBand.value : VolatilityBand → String
  | .high => "HIGH"
  | .normal => "NORMAL"
  | .low => "LOW"
  | .unknown => "UNKNOWN"

/-- A text as it is printed, when there may be none. -/
def shown (text : Option String) : String := text.getD "None"

/-- The shape every brain uses when it could not read its input. -/
def unavailable (brain : BrainName) (observation : PositionObservation) (detail name : String) : BrainResult where
  brain := brain
  state := .unavailable
  evidence := [{ name := name, detail := detail }]
  dataQuality := .unavailable
  source := observation.position.markSource
  observedAt := observation.now

end Observation

section Market

/-- Is there a usable price at all, and how old is it? -/
def marketBrain (observation : PositionObservation) : BrainResult :=
  let position := observation.position
  let symbol := position.symbol
  let source := shown position.markSource
  let status := shown position.markStatus
  match position.markPrice with
  | none =>
      let reported := orText position.markStatus "nothing"
      unavailable .market observation (s!"No usable mark for {symbol}. The last poll reported {reported}, so no distance, " ++
        "PnL or excursion can be measured from it.") "mark_usable"
  | some mark =>
      let current : Bool := position.markStatus = some "OK"
      { brain := .market
        state := if current then .supportive else .neutral
        evidence :=
          [{ name := "mark_usable"
             observed := some (str mark)
             reference := position.markSource
             satisfied := some true
             detail := "Marked at " ++ str mark ++ s!" from {source}." },
           { name := "mark_status"
             observed := position.markStatus
             reference := some "OK"
             satisfied := some current
             detail := s!"The venue reported {status} for this observation." }]
        dataQuality := if current then .ok else .degraded
        source := position.markSource
        observedAt := observation.now }

end Market

section Technical

/-- The published rule set over current candles, for the side that is held. -/
def currentConditions (observation : PositionObservation) : Option (List ConditionOutcome × StrategyBias) := do
  let candles ← observation.candles
  guard (candles ≠ [])
  let values ← computeIndicatorValues candles observation.strategyParams
  let (longConditions, shortConditions, bias) := evaluateConditions values observation.strategyParams
  return (if observation.isLong then longConditions else shortConditions, bias)

/-- The condition of a name; the last of them where there are several. -/
def namedCondition (conditions : List ConditionOutcome) (name : String) : Option ConditionOutcome :=
  conditions.reverse.find? fun condition => condition.name = name

/-- What became of one of the conditions that were recorded at entry. -/
def recheck (current : List ConditionOutcome) (condition : ConditionOutcome) : Evidence :=
  let name := condition.name
  match namedCondition current name with
  | none =>
      { name := name
        reference := some "satisfied at entry"
        detail := s!"{name} was recorded at entry but is not present in the current rule set, so it cannot be re-checked." }
  | some latest =>
      { name := name
        observed := some (if latest.satisfied then "holds" else "no longer holds")
        reference := some "satisfied at entry"
        satisfied := some latest.satisfied
        detail := latest.detail }

/-- Do the original entry conditions still hold, one by one? -/
def technicalBrain (observation : PositionObservation) : BrainResult :=
  match observation.position.thesis.bind PositionThesis.strategy with
  | none =>
      unavailable .technical observation ("This position recorded no rule set at entry, so there are no original " ++
        "conditions to re-check. Alignment is not measurable -- which is different from it being low.")
        "entry_conditions_recorded"
  | some strategy =>
      let original := strategy.entryConditions
      if original = [] then
        unavailable .technical observation
          "The recorded thesis carried no conditions, so there is nothing to compare." "entry_conditions_recorded"
      else
        match currentConditions observation with
        | none =>
            unavailable .technical observation ("Indicators could not be recomputed: no candles, or at least one " ++
              "required indicator has not warmed up over the series supplied.") "indicators_available"
        | some (current, _) =>
            let evidence := original.map (recheck current)
            let held := (evidence.filter fun row => row.satisfied = some true).length
            let total := original.length
            { brain := .technical
              state := if held = total then .supportive else if held * 3 ≤ total then .adverse else .weakening
              evidence := evidence
              dataQuality := .ok
              source := strategy.dataSource
              observedAt := observation.now }

end Technical

section Regime

def regimeMethod : String := "market-regime/v1"

def supportiveRegime (isLong : Bool) : MarketRegime := if isLong then .trendUp else .trendDown

def opposingRegime (isLong : Bool) : MarketRegime := if isLong then .trendDown else .trendUp

/-- Is the market still the kind of market this position was opened into? -/
def regimeBrain (observation : PositionObservation) : BrainResult :=
  match observation.regime.filter fun assessment => assessment.regime ≠ .unknown with
  | none =>
      unavailable .regime observation ("The regime could not be classified -- a required input has not warmed up. UNKNOWN " ++
        "is not RANGE, and is not treated as one.") "regime_classified"
  | some assessment =>
      let current := assessment.regime
      let supportive := supportiveRegime observation.isLong
      let band := VolatilityBand.value assessment.volatilityBand
      let entryRegime := (observation.position.thesis.bind PositionThesis.strategy).bind StrategyContext.regime
      let sinceEntry := match entryRegime with
        | none => []
        | some entry =>
            let before := entry.value
            let after := current.value
            [{ name := "regime_since_entry"
               observed := some after
               reference := some before
               satisfied := some (decide (current = entry))
               detail := if current = entry then s!"Unchanged since entry: {after}."
                 else s!"Entered in {before}; now {after}." }]
      { brain := .regime
        state := if current = opposingRegime observation.isLong then .adverse
          else if current = supportive then .supportive else .neutral
        evidence :=
          [{ name := "regime_now"
             observed := some current.value
             reference := some supportive.value
             satisfied := some (decide (current = supportive))
             detail := assessment.reason },
           { name := "volatility_band"
             observed := some band
             detail := s!"Volatility reads {band}." }] ++ sinceEntry
        dataQuality := .ok
        source := some regimeMethod
        observedAt := observation.now }

end Regime

section Momentum

def rocSpec (period : Nat) : IndicatorSpec where
  key := "roc"
  name := "Rate of Change"
  valueKeys := ["roc"]
  compute candles _ := [("roc", roc candles period)]
  warmup _ := period

/-- The last bar's volume against the mean of the bars before it. -/
def relativeVolume (candles : List Candle) (window : Nat) : Option Decimal := do
  guard (2 ≤ candles.length)
  let baselineBars := trailing candles window
  guard (baselineBars ≠ [])
  let total := (baselineBars.map Candle.volume).sum
  guard (0 < total)
  let baseline := total / baselineBars.length
  guard (0 < baseline)
  let last ← candles.getLast?
  return last.volume / baseline

/-- The parameters of the oscillators, with the defaults of the others. -/
def oscillators (params : TrendMomentumParams) : IndicatorParams where
  emaPeriod := 21
  rsiPeriod := params.rsiPeriod
  adxPeriod := 14
  macdFast := params.macdFast
  macdSlow := params.macdSlow
  macdSignal := params.macdSignal
  emaPeriod_bounds := defaultRegimeParams.emaFast_bounds
  rsiPeriod_bounds := params.rsiPeriod_bounds
  adxPeriod_bounds := defaultRegimeParams.adxPeriod_bounds
  macdFast_bounds := params.macdFast_bounds
  macdSlow_bounds := params.macdSlow_bounds
  macdSignal_bounds := params.macdSignal_bounds
  macdFast_lt_macdSlow := params.macdFast_lt_macdSlow

/-- A figure on the side of its midline that supports the position. -/
def supports (isLong : Bool) (value midline : Decimal) : Bool :=
  if isLong then decide (midline < value) else decide (value < midline)

def histogramRow (isLong : Bool) (histogram : Decimal) : Evidence :=
  let holds := supports isLong histogram 0
  { name := "macd_histogram"
    observed := some (fixed 8 histogram)
    reference := some (if isLong then "positive" else "negative")
    satisfied := some holds
    detail := "MACD histogram " ++ fixed 8 histogram ++
      (if holds then " still supports" else " no longer supports") ++ " the position." }

def rocRow (isLong : Bool) (roc : Decimal) : Evidence where
  name := "rate_of_change"
  observed := some (fixed 6 roc)
  reference := some (if isLong then "positive" else "negative")
  satisfied := some (supports isLong roc 0)
  detail := "Rate of change " ++ fixed 6 roc ++ " over its lookback."

def rsiRow (isLong : Bool) (rsi : Decimal) : Evidence where
  name := "rsi"
  observed := some (fixed 2 rsi)
  reference := some ((if isLong then "above" else "below") ++ " 50")
  satisfied := some (supports isLong rsi 50)
  detail := "RSI " ++ fixed 2 rsi ++ " against the 50 midline."

def volumeRow (ratio : Option Decimal) : Evidence :=
  match ratio with
  | none => { name := "relative_volume", detail := "No usable volume baseline over the candles supplied." }
  | some ratio =>
      let fading : Bool := ratio ≤ volumeFade
      { name := "relative_volume"
        observed := some (fixed 3 ratio)
        reference := some (">" ++ fixed 2 volumeFade)
        satisfied := some (!fading)
        detail := "Last bar traded " ++ fixed 3 ratio ++ "x its trailing baseline" ++
          (if fading then "; participation is draining" else "") ++ "." }

/-- Is the move still being pushed, and is anyone still trading it? -/
def momentumVolumeBrain (observation : PositionObservation) : BrainResult :=
  let candles := observation.candles.getD []
  let params := oscillators observation.strategyParams
  let isLong := observation.isLong
  let rsi := latest (buildResult rsiSpec candles params) "rsi"
  let histogram := latest (buildResult macdSpec candles params) "histogram"
  let roc := latest (buildResult (rocSpec 12) candles params) "roc"
  if candles = [] then
    unavailable .momentumVolume observation "No candles were supplied, so momentum and volume cannot be measured."
      "candles_available"
  else
    let readings := (histogram.map (histogramRow isLong)).toList ++ (roc.map (rocRow isLong)).toList ++
      (rsi.map (rsiRow isLong)).toList
    if readings = [] then
      unavailable .momentumVolume observation "None of RSI, MACD or ROC warmed up over the candles supplied."
        "indicators_available"
    else
      let against := (readings.filter fun row => row.satisfied = some false).length
      { brain := .momentumVolume
        state := if against = 0 then .supportive else if against = readings.length then .adverse else .weakening
        evidence := readings ++ [volumeRow (relativeVolume candles 20)]
        dataQuality := if readings.length = 3 then .ok else .degraded
        source := observation.position.markSource
        observedAt := observation.now }

end Momentum

section Structure

/-- Market structure: not implemented, and it says so. -/
def structureBrain (observation : PositionObservation) : BrainResult where
  brain := .structural
  state := .unavailable
  evidence :=
    [{ name := "smc_capability"
       observed := some "UNAVAILABLE"
       reference := some "analysis.smc"
       detail := "SMC capability is not implemented. No break of structure, change of character, fair value gap, order " ++
         "block or liquidity level is calculated, and none is inferred from other indicators." }]
  dataQuality := .unavailable
  observedAt := observation.now

end Structure

section Position

/-- A number of seconds as a float prints it. -/
def secondsText (seconds : Decimal) : String := if seconds.den = 1 then str seconds ++ ".0" else str seconds

/-- An excursion that was seen, or that was not. -/
def excursionRow (label upper : String) (value : Option Decimal) : Evidence where
  name := label
  observed := value.map fun value => str value ++ "%"
  detail := match value with
    | some value => s!"Observed {upper} of " ++ str value ++ "% of entry, from marks seen while open."
    | none => s!"{upper} was never observed."

/-- How much of the way to the target the mark is away from the entry. -/
def travelled (entry mark target : Decimal) : Option Decimal :=
  let span := |target - entry|
  if 0 < span then some (|mark - entry| / span) else none

def targetRow (distance : Decimal) (fraction : Option Decimal) : Evidence where
  name := "target_proximity"
  observed := some (str distance ++ "%")
  reference := some (fixed 2 (targetProximity * 100) ++ "% of the way")
  satisfied := some (fraction.any fun covered => targetProximity ≤ covered)
  detail := str distance ++ "% from target; " ++ fixed 1 ((fraction.map (· * 100)).getD 0) ++
    "% of the planned distance covered."

def remainingRow (remainingR : Option Decimal) : Evidence :=
  match remainingR with
  | some remaining =>
      { name := "remaining_r"
        observed := some (str remaining)
        reference := some (fixed 2 stopProximityR)
        satisfied := some (decide (stopProximityR < remaining))
        detail := str remaining ++ "R of the planned risk still lies between the mark and the stop." }
  | none =>
      { name := "remaining_r"
        detail := "No risk was planned at entry, so remaining R is not computable. That is different from it being zero." }

/-- Where the position sits between its own stop and its own target. -/
def positionBrain (observation : PositionObservation) : BrainResult :=
  let metrics := observation.metrics
  let position := observation.position
  match observation.mark with
  | none =>
      unavailable .position observation "Unmarked, so the position's standing against its own levels is unknown."
        "mark_usable"
  | some mark =>
      let target := do
        let distance ← metrics.targetDistancePercent
        let target ← position.targetPrice
        return targetRow distance (travelled position.entryPrice mark target)
      let nearTarget := target.any fun row => row.satisfied = some true
      let nearStop := metrics.remainingR.any fun remaining => remaining ≤ stopProximityR
      let pnl := metrics.unrealizedPnl.map str
      let elapsed := secondsText metrics.timeInTradeSeconds
      { brain := .position
        state := if nearStop then .adverse else if nearTarget then .weakening else .neutral
        evidence :=
          [{ name := "unrealized_pnl"
             observed := pnl
             detail := match pnl with
               | some pnl => s!"Unrealised {pnl}."
               | none => "Unrealised PnL is not computable without a usable mark." },
           { name := "time_in_trade"
             observed := some s!"{elapsed}s"
             detail := s!"Open for {elapsed} seconds." },
           excursionRow "mfe" "MFE" metrics.mfePercent, excursionRow "mae" "MAE" metrics.maePercent] ++
          target.toList ++ [remainingRow metrics.remainingR]
        dataQuality := .ok
        source := position.markSource
        observedAt := observation.now }

end Position

section Risk

/-- The engine's current posture, read rather than recomputed. -/
def riskBrain (observation : PositionObservation) : BrainResult :=
  let lock := RiskLockState.value observation.riskLock
  let orders := observation.unreconciledOrders
  let stopRecorded := observation.position.stopPrice.isSome
  let blocked : Bool := observation.riskLock.blocksEntries ∨ 0 < orders
  { brain := .risk
    state := if blocked then .adverse else if stopRecorded then .supportive else .weakening
    evidence :=
      [{ name := "risk_lock"
         observed := some lock
         reference := some (RiskLockState.value .none)
         satisfied := some (!observation.riskLock.blocksEntries)
         detail := orText observation.riskLockReason
           (if observation.riskLock.blocksEntries then s!"{lock} is engaged." else "No daily lock is engaged.") },
       { name := "reconciliation"
         observed := some (toString orders)
         reference := some "0"
         satisfied := some (decide (orders = 0))
         detail := if orders = 0 then "No orders await reconciliation." else s!"{orders} order(s) await reconciliation." },
       { name := "liquidation_distance"
         observed := observation.metrics.liquidationDistancePercent.map fun distance => str distance ++ "%"
         detail := match observation.metrics.liquidationDistancePercent with
           | some distance => "Mark sits " ++ str distance ++ "% from the modelled liquidation price. The model is " ++
               "optimistic: real venues liquidate earlier, at a maintenance margin this build does not know."
           | none => "No liquidation price is available for this position." },
       { name := "stop_present"
         observed := some (if stopRecorded then "present" else "absent")
         reference := some "present"
         satisfied := some stopRecorded
         detail := if stopRecorded then "A stop level is recorded on the position."
           else "No stop is recorded, so this position has no defined risk." }]
    dataQuality := .ok
    source := some "risk-engine"
    observedAt := observation.now }

end Risk

section Exit

/-- The result of a brain among those that are given; the last of them where there are several. -/
def byName (results : List BrainResult) (name : BrainName) : Option BrainResult :=
  results.reverse.find? fun result => result.brain = name

def isAdverse (result : Option BrainResult) : Bool := result.any fun result => result.state = .adverse

def isMeasured (result : Option BrainResult) : Bool := result.any fun result => result.state.isMeasured

/-- Whether anything observed amounts to a reason to stop holding. Profit is not an input. -/
def exitBrain (observation : PositionObservation) (upstream : List BrainResult) : BrainResult :=
  let technical := byName upstream .technical
  let regime := byName upstream .regime
  let thesisBroken := isAdverse technical
  let regimeOpposed := isAdverse regime
  let momentumOpposed := isAdverse (byName upstream .momentumVolume)
  let levelsViolated := isAdverse (byName upstream .position)
  let supported := technical.any fun result => result.state = .supportive
  let confirmedReversal := thesisBroken && (regimeOpposed || momentumOpposed || levelsViolated)
  let weakened := technical.any fun result => result.state = .weakening
  let state : BrainState :=
    if confirmedReversal then .adverse
    else if thesisBroken ∨ regimeOpposed ∨ weakened then .weakening
    else if isMeasured technical then .supportive
    else .unavailable
  { brain := .exit
    state := state
    evidence :=
      [{ name := "thesis_conditions"
         observed := technical.map fun result => result.state.value
         reference := some BrainState.supportive.value
         satisfied := technical.map fun result => decide (result.state = .supportive)
         detail := if supported then "Every original entry condition still holds."
           else if isMeasured technical then "One or more original entry conditions no longer hold."
           else "The original conditions could not be re-checked." },
       { name := "regime_opposed"
         observed := regime.map fun result => result.state.value
         satisfied := if isMeasured regime then some (!regimeOpposed) else none
         detail := if regimeOpposed then "The regime now opposes the position."
           else if isMeasured regime then "The regime does not oppose the position."
           else "The regime could not be classified." },
       { name := "position_levels"
         observed := some (if levelsViolated then "violated" else "intact")
         satisfied := some (!levelsViolated)
         detail := if levelsViolated then "The mark has passed the stop recorded at entry."
           else "The mark is still inside the levels recorded at entry." },
       { name := "confirmed_reversal"
         observed := some (if confirmedReversal then "true" else "false")
         reference := some "thesis broken AND (regime, momentum or levels against)"
         satisfied := some (!confirmedReversal)
         detail := if confirmedReversal then
             "The original thesis has failed and a second independent reading confirms it."
           else "No confirmed reversal: a single adverse reading is not enough." }]
    dataQuality := if state = .unavailable then .unavailable else .ok
    source := some "position-intelligence"
    observedAt := observation.now }

end Exit

end Aetheris.Brains
