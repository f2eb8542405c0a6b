import Aetheris.Backtest
import Aetheris.IndicatorLibrary
import Mathlib.Data.List.Sort

namespace Aetheris.Optimize

open Lib Money Clock PaperRecords Indicators TrendMomentum Backtest IndicatorLibrary

section Domain

inductive ParameterType
  | integer | decimal
  deriving DecidableEq, Repr

/-- One tunable parameter and the bounded range that the search may explore. -/
structure ParameterSpec where
  name : String
  type : ParameterType
  minimum : Decimal
  maximum : Decimal
  step : Decimal
  default : Decimal
  step_pos : 0 < step
  minimum_le_maximum : minimum ≤ maximum
  default_bounds : minimum ≤ default ∧ default ≤ maximum
  step_le_range : step ≤ maximum - minimum ∨ minimum = maximum

/-- The loop that adds the step until it passes the maximum. -/
def ladder (step maximum : Decimal) : Nat → Decimal → List Decimal
  | 0, _ => []
  | fuel + 1, current => if current ≤ maximum then current :: ladder step maximum fuel (current + step) else []

/-- Every value that the grid tries, with both ends. -/
def ParameterSpec.values (spec : ParameterSpec) : List Decimal :=
  let out := ladder spec.step spec.maximum (⌊(spec.maximum - spec.minimum) / spec.step⌋₊ + 1) spec.minimum
  match out.getLast? with
  | some last => if last ≠ spec.maximum then out ++ [spec.maximum] else out
  | none => out

/-- A chronological partition of one series of candles, in windows that do not overlap. -/
structure DataSplit where
  trainStart : Nat
  trainEnd : Nat
  validationStart : Nat
  validationEnd : Nat
  testStart : Nat
  testEnd : Nat
  totalBars : Nat
  train_ordered : trainStart ≤ trainEnd
  train_before_validation : trainEnd ≤ validationStart
  validation_ordered : validationStart ≤ validationEnd
  validation_before_test : validationEnd ≤ testStart
  test_ordered : testStart ≤ testEnd
  test_within : testEnd ≤ totalBars
  deriving DecidableEq

/-- One pair of windows of a rolling evaluation. -/
structure WalkForwardWindow where
  index : Nat
  trainStart : Nat
  trainEnd : Nat
  validationStart : Nat
  validationEnd : Nat
  train_before_validation : trainEnd ≤ validationStart
  train_nonempty : trainStart < trainEnd
  validation_nonempty : validationStart < validationEnd
  deriving DecidableEq

/-- A dictionary, by its items. -/
abbrev Values := List (String × Decimal)

/-- The dictionary of some items, where a later value of a key takes the place of an earlier one. -/
def dict (items : Values) : Values :=
  items.foldl (fun entries item =>
    if entries.any fun entry => entry.1 = item.1 then
      entries.map fun entry => if entry.1 = item.1 then item else entry
    else entries ++ [item]) []

/-- The metrics of a backtest, with the ratio that the other figures of a run do not need. -/
structure Metrics extends BacktestMetrics where
  sharpeLikeRatio : Option Decimal
  deriving DecidableEq

/-- The objective's verdict on one candidate. -/
structure TrialScore where
  value : Decimal
  components : Values := []
  detail : String
  rejectedReason : Option String := none
  deriving DecidableEq

/-- One parameter set, evaluated in the sample and out of it. -/
structure OptimizationTrial where
  parameters : Values
  trainScore : TrialScore
  trainMetrics : Option Metrics
  validationScore : Option TrialScore
  validationMetrics : Option Metrics
  deriving DecidableEq

/-- The record of one search. -/
structure OptimizationReport where
  space : List ParameterSpec
  combinationsEvaluated : Nat
  combinationsPossible : Nat
  split : DataSplit
  trials : List OptimizationTrial
  best : Option OptimizationTrial
  testMetrics : Option Metrics
  testScore : Option TrialScore
  config : BacktestConfig
  firstBarTime : Option Timestamp
  lastBarTime : Option Timestamp
  warnings : List String

/-- What one window says: the parameters chosen on its training bars, and their score on the bars after. -/
structure WalkForwardFold where
  window : WalkForwardWindow
  selected : Values
  trainScore : TrialScore
  validationScore : TrialScore
  validationMetrics : Option Metrics
  candidatesEvaluated : Nat
  deriving DecidableEq

/-- A rolling evaluation across the whole series. -/
structure WalkForwardReport where
  space : List ParameterSpec
  trainBars : Nat
  validationBars : Nat
  stepBars : Nat
  folds : List WalkForwardFold
  meanValidationScore : Option Decimal
  meanTrainScore : Option Decimal
  mostSelected : Option Values
  mostSelectedFolds : Nat
  config : BacktestConfig
  warnings : List String

end Domain

section Splitting

/-- The three windows of a series. What the two fractions leave is the test window. -/
def splitChronological (totalBars : Nat) (trainFraction validationFraction : Decimal) : Except String DataSplit :=
  if totalBars = 0 then .error "cannot split an empty series"
  else if trainFraction ≤ 0 ∨ validationFraction ≤ 0 then .error "train and validation fractions must be positive"
  else if 1 ≤ trainFraction + validationFraction then .error "fractions must leave a non-empty test window"
  else
    let trainEnd := ⌊totalBars * trainFraction⌋₊
    let validationEnd := trainEnd + ⌊totalBars * validationFraction⌋₊
    if h : trainEnd = 0 ∨ validationEnd ≤ trainEnd ∨ totalBars ≤ validationEnd then
      .error s!"{totalBars} bars cannot be split into three non-empty windows at these fractions"
    else
      .ok
        { trainStart := 0
          trainEnd := trainEnd
          validationStart := trainEnd
          validationEnd := validationEnd
          testStart := validationEnd
          testEnd := totalBars
          totalBars := totalBars
          train_ordered := Nat.zero_le _
          train_before_validation := le_refl _
          validation_ordered := Nat.le_add_right _ _
          validation_before_test := le_refl _
          test_ordered := by omega
          test_within := le_refl _ }

variable {trainBars validationBars : Nat}

def window (htrain : 0 < trainBars) (hvalidation : 0 < validationBars) (start index : Nat) : WalkForwardWindow where
  index := index
  trainStart := start
  trainEnd := start + trainBars
  validationStart := start + trainBars
  validationEnd := start + trainBars + validationBars
  train_before_validation := le_refl _
  train_nonempty := Nat.lt_add_of_pos_right htrain
  validation_nonempty := Nat.lt_add_of_pos_right hvalidation

/-- The loop that rolls a window forward while the series holds it. -/
def roll (htrain : 0 < trainBars) (hvalidation : 0 < validationBars) (totalBars step : Nat) :
    Nat → Nat → Nat → List WalkForwardWindow
  | 0, _, _ => []
  | fuel + 1, start, index =>
      if start + trainBars + validationBars ≤ totalBars then
        window htrain hvalidation start index ::
          roll htrain hvalidation totalBars step fuel (start + step) (index + 1)
      else []

/-- Rolling pairs of windows that only ever move forward. -/
def walkForwardWindows (totalBars : Nat) (trainBars validationBars : Int) (stepBars : Option Int) :
    Except String (List WalkForwardWindow) :=
  if h : trainBars ≤ 0 ∨ validationBars ≤ 0 then .error "both window sizes must be positive"
  else
    let step := stepBars.getD validationBars
    if step ≤ 0 then .error "step_bars must be positive"
    else
      have htrain : 0 < trainBars.toNat := by omega
      have hvalidation : 0 < validationBars.toNat := by omega
      .ok (roll htrain hvalidation totalBars step.toNat (totalBars + 1) 0 0)

end Splitting

section Objective

def minTradesForObjective : Nat := 20

def clampUnit (value : Decimal) : Decimal := if value < 0 then 0 else if 1 < value then 1 else value

/-- Four decimals, half up. -/
def ratio (value : Decimal) : Decimal := FixedPoint.halfUp 10000 value

/-- The score of one backtest. Below the gate on the trades it is zero, whatever the return. -/
def scoreObjective (metrics : Option Metrics) : TrialScore :=
  match metrics with
  | none =>
      { value := 0
        detail := "The backtest produced no metrics, so there is nothing to score."
        rejectedReason := some "NO_METRICS" }
  | some metrics =>
      if metrics.totalTrades < minTradesForObjective then
        { value := 0
          components := [("total_trades", metrics.totalTrades)]
          detail := s!"{metrics.totalTrades} trades is below the {minTradesForObjective} " ++
            "required for this objective to mean anything. Rejected regardless of return: a large result from a " ++
            "handful of trades is the outcome this gate exists to exclude."
          rejectedReason := some "TOO_FEW_TRADES" }
      else
        let returnNorm := clampUnit (metrics.returnPercent / 30)
        let pfNorm :=
          match metrics.profitFactor with
          | none => 1
          | some profitFactor => clampUnit ((profitFactor - 1) / (2 - 1))
        let ddNorm := clampUnit (1 - metrics.maxDrawdownPercent / 25)
        let streakNorm := clampUnit (1 - metrics.maxConsecutiveLosses / 10)
        let components : Values :=
          [("return", ratio (returnNorm * (35 / 100))), ("profit_factor", ratio (pfNorm * (25 / 100))),
            ("drawdown", ratio (ddNorm * (25 / 100))), ("consistency", ratio (streakNorm * (15 / 100)))]
        { value := ratio (components.map Prod.snd).sum
          components := components
          detail := s!"{metrics.totalTrades} trades, " ++ fixed 4 metrics.returnPercent ++ "% return, profit factor " ++
            (metrics.profitFactor.map (fixed 4)).getD "None" ++ ", max drawdown " ++ fixed 4 metrics.maxDrawdownPercent ++
            s!"%, longest losing streak {metrics.maxConsecutiveLosses}." }

end Objective

section Candidates

/-- A small grid over parameters that the strategy has. -/
def defaultParameterSpace : List ParameterSpec :=
  [{ name := "ema_fast", type := .integer, minimum := 9, maximum := 21, step := 6, default := 21
     step_pos := by norm_num, minimum_le_maximum := by norm_num, default_bounds := by norm_num
     step_le_range := by norm_num },
    { name := "ema_slow", type := .integer, minimum := 50, maximum := 70, step := 10, default := 55
      step_pos := by norm_num, minimum_le_maximum := by norm_num, default_bounds := by norm_num
      step_le_range := by norm_num },
    { name := "adx_minimum", type := .decimal, minimum := 15, maximum := 25, step := 5, default := 20
      step_pos := by norm_num, minimum_le_maximum := by norm_num, default_bounds := by norm_num
      step_le_range := by norm_num }]

/-- The strategy's own validation of its fields. -/
def validated (emaFast emaSlow rsiPeriod : Nat) (rsiOverbought rsiOversold : Decimal) (adxPeriod : Nat)
    (adxMinimum : Decimal) (macdFast macdSlow macdSignal : Nat) : Option TrendMomentumParams :=
  if h : ((2 ≤ emaFast ∧ emaFast ≤ 200) ∧ (3 ≤ emaSlow ∧ emaSlow ≤ 400) ∧ (2 ≤ rsiPeriod ∧ rsiPeriod ≤ 200) ∧
      (50 < rsiOverbought ∧ rsiOverbought < 100) ∧ (0 < rsiOversold ∧ rsiOversold < 50) ∧
      (2 ≤ adxPeriod ∧ adxPeriod ≤ 200) ∧ (0 ≤ adxMinimum ∧ adxMinimum ≤ 100) ∧ (2 ≤ macdFast ∧ macdFast ≤ 200) ∧
      (3 ≤ macdSlow ∧ macdSlow ≤ 400) ∧ (2 ≤ macdSignal ∧ macdSignal ≤ 200)) ∧
      emaFast < emaSlow ∧ macdFast < macdSlow then
    some
      { emaFast := emaFast
        emaSlow := emaSlow
        rsiPeriod := rsiPeriod
        rsiOverbought := rsiOverbought
        rsiOversold := rsiOversold
        adxPeriod := adxPeriod
        adxMinimum := adxMinimum
        macdFast := macdFast
        macdSlow := macdSlow
        macdSignal := macdSignal
        emaFast_bounds := h.1.1
        emaSlow_bounds := h.1.2.1
        rsiPeriod_bounds := h.1.2.2.1
        rsiOverbought_bounds := h.1.2.2.2.1
        rsiOversold_bounds := h.1.2.2.2.2.1
        adxPeriod_bounds := h.1.2.2.2.2.2.1
        adxMinimum_bounds := h.1.2.2.2.2.2.2.1
        macdFast_bounds := h.1.2.2.2.2.2.2.2.1
        macdSlow_bounds := h.1.2.2.2.2.2.2.2.2.1
        macdSignal_bounds := h.1.2.2.2.2.2.2.2.2.2
        emaFast_lt_emaSlow := h.2.1
        macdFast_lt_macdSlow := h.2.2 }
  else none

/-- The parameters of a point of the grid, or nothing where the strategy rejects them. The names that are converted
are cut to an integer, the other periods have to be one, and names that are no field are left out. -/
def buildParams (values : Values) : Option TrendMomentumParams := do
  let given (name : String) : Option Decimal := (values.find? fun value => value.1 = name).map Prod.snd
  let converted (name : String) (default : Nat) : Nat :=
    ((given name).map fun value => (truncDiv value 1).toNat).getD default
  let integral (name : String) (default : Nat) : Option Nat :=
    match given name with
    | none => some default
    | some value => if value.den = 1 then some value.num.toNat else none
  let macdFast ← integral "macd_fast" 12
  let macdSlow ← integral "macd_slow" 26
  let macdSignal ← integral "macd_signal" 9
  validated (converted "ema_fast" 21) (converted "ema_slow" 55) (converted "rsi_period" 14)
    ((given "rsi_overbought").getD 70) ((given "rsi_oversold").getD 30) (converted "adx_period" 14)
    ((given "adx_minimum").getD 20) macdFast macdSlow macdSignal

/-- The warm-up of the default parameters. -/
def defaultWarmup : Nat := ((buildParams []).map warmupBars).getD 0

example : defaultWarmup = 54 := by decide +kernel

/-- The specifications in the order that the grid is generated in. -/
def orderedBy (specs : List ParameterSpec) : List ParameterSpec := specs.insertionSort fun x y => x.name ≤ y.name

/-- One value of each grid, the last grid the fastest. -/
def product : List (List Decimal) → List (List Decimal)
  | [] => [[]]
  | grid :: grids => grid.flatMap fun value => (product grids).map (value :: ·)

def combinationsPossible (ordered : List ParameterSpec) : Nat := (ordered.map fun spec => spec.values.length).prod

/-- The points of the grid that the strategy accepts, with their parameters. -/
def candidates (ordered : List ParameterSpec) : List (Values × TrendMomentumParams) :=
  (product (ordered.map ParameterSpec.values)).filterMap fun combination =>
    let values := dict ((ordered.map ParameterSpec.name).zip combination)
    (buildParams values).map fun params => (values, params)

end Candidates

section Search

variable (timeframe : Timeframe) (settings : BacktestConfig)

/-- The mean over the deviation of the returns of the bars, for a year of them. -/
def sharpeLike (curve : List EquityPoint) : Option Decimal := do
  guard (3 ≤ curve.length)
  let returns ← (curve.zip curve.tail).mapM fun (previous, current) =>
    if previous.equity ≤ 0 then none else some ((current.equity - previous.equity) / previous.equity)
  guard (returns ≠ [])
  let variance := mean (returns.map fun value => (value - mean returns) ^ 2)
  guard (0 < variance)
  let barsPerYear : Decimal := (365 * 24 * 3600 : Nat) / timeframe.seconds
  return mean returns / sqrt variance * sqrt barsPerYear

/-- The metrics of a backtest that completed. -/
def evaluate (candles : List Candle) (params : TrendMomentumParams) : Option Metrics :=
  let result := runBacktest candles settings params
  if result.status = .completed then
    result.metrics.map fun metrics =>
      { metrics with sharpeLikeRatio := (sharpeLike timeframe result.equityCurve).map (quantize 4) }
  else none

def trialOf (train validation : List Candle) (candidate : Values × TrendMomentumParams) : OptimizationTrial :=
  let trainMetrics := evaluate timeframe settings train candidate.2
  let validationMetrics := evaluate timeframe settings validation candidate.2
  { parameters := candidate.1
    trainScore := scoreObjective trainMetrics
    trainMetrics := trainMetrics
    validationScore := some (scoreObjective validationMetrics)
    validationMetrics := validationMetrics }

/-- The first trial with the highest score on the validation window. -/
def bestOf (trials : List OptimizationTrial) : Option OptimizationTrial :=
  (trials.foldl (fun best trial =>
    match trial.validationScore with
    | none => best
    | some score =>
        match best with
        | none => some (trial, score)
        | some (_, highest) => if highest.value < score.value then some (trial, score) else best) none).map Prod.fst

def windowWarning (name : String) (bars : List Candle) : List String :=
  if bars.length ≤ defaultWarmup then
    [s!"The {name} window holds {bars.length} bars, at or below the {defaultWarmup}" ++
      "-bar warm-up, so it can produce no trades. Each window is sliced strictly to prevent leakage, and pays its own " ++
      "warm-up."]
  else []

/-- The split that is given, or else the default one. -/
def partitionOf (split : Option DataSplit) (totalBars : Nat) : Except String DataSplit :=
  match split with
  | some split => .ok split
  | none => splitChronological totalBars (6 / 10) (2 / 10)

/-- The bounded search over the grid, with its results in the sample and out of it. -/
def optimize (candles : List Candle) (space : Option (List ParameterSpec)) (split : Option DataSplit)
    (maxCombinations : Nat) : Except String OptimizationReport := do
  let specs := space.getD defaultParameterSpace
  if specs = [] then throw "an empty parameter space has nothing to search"
  let ordered := orderedBy specs
  let possible := combinationsPossible ordered
  if maxCombinations < possible then
    throw (s!"this space would evaluate {possible} combinations, above the {maxCombinations} ceiling. " ++
      "Narrow a range or raise the ceiling deliberately -- each combination costs two backtests.")
  let partition ← partitionOf split candles.length
  if partition.totalBars ≠ candles.length then
    throw "the split describes a different number of bars than were supplied"
  let train := slice candles partition.trainStart partition.trainEnd
  let validation := slice candles partition.validationStart partition.validationEnd
  let test := slice candles partition.testStart partition.testEnd
  let trials := (candidates ordered).map (trialOf timeframe settings train validation)
  let best := bestOf trials
  let winner := best.bind fun best => buildParams best.parameters
  return {
    space := ordered
    combinationsEvaluated := (candidates ordered).length
    combinationsPossible := possible
    split := partition
    trials := trials
    best := best
    testMetrics := winner.bind (evaluate timeframe settings test)
    testScore := winner.map fun params => scoreObjective (evaluate timeframe settings test params)
    config := settings
    firstBarTime := candles.head?.map Candle.openTime
    lastBarTime := candles.getLast?.map Candle.closeTime
    warnings := windowWarning "train" train ++ windowWarning "validation" validation ++ windowWarning "test" test ++
      (if (best.bind fun best => best.validationScore.bind TrialScore.rejectedReason).isSome then
        ["Every candidate was rejected by the objective's gate, so the reported best is merely the first of equals at " ++
          "zero. This is not a selection."]
      else []) }

end Search

section WalkForward

variable (timeframe : Timeframe) (settings : BacktestConfig)

/-- What is chosen on one window: the values, their score and how many candidates there were. -/
structure Selection where
  values : Values
  score : TrialScore
  evaluated : Nat

def better (best : Option (Values × TrialScore)) (candidate : Values × TrialScore) : Option (Values × TrialScore) :=
  match best with
  | none => some candidate
  | some found => if found.2.value < candidate.2.value then some candidate else best

/-- The first of the scored candidates with the highest score. -/
def highest (scored : List (Values × TrialScore)) : Option (Values × TrialScore) := scored.foldl better none

/-- Every candidate is scored over one window, and the best is returned. -/
def selectOn (candles : List Candle) (ordered : List ParameterSpec) : Option Selection :=
  (highest ((candidates ordered).map fun candidate =>
    (candidate.1, scoreObjective (evaluate timeframe settings candles candidate.2)))).map fun (values, score) =>
      { values := values, score := score, evaluated := (candidates ordered).length }

/-- A fold: the choice is made on the training bars, and scored on the bars after them. -/
def foldOf (candles : List Candle) (ordered : List ParameterSpec) (window : WalkForwardWindow) :
    Option WalkForwardFold := do
  let train := slice candles window.trainStart window.trainEnd
  let validation := slice candles window.validationStart window.validationEnd
  let selection ← selectOn timeframe settings train ordered
  let params ← buildParams selection.values
  let metrics := evaluate timeframe settings validation params
  return {
    window := window
    selected := selection.values
    trainScore := selection.score
    validationScore := scoreObjective metrics
    validationMetrics := metrics
    candidatesEvaluated := selection.evaluated }

def meanScore (scores : List TrialScore) : Option Decimal :=
  if scores ≠ [] then some (ratio (mean (scores.map TrialScore.value))) else none

def itemLe (x y : String × Decimal) : Bool := decide (x.1 < y.1 ∨ x.1 = y.1 ∧ x.2 ≤ y.2)

/-- The order of tuples of items. -/
def keyLe : Values → Values → Bool
  | [], _ => true
  | _ :: _, [] => false
  | x :: xs, y :: ys => if x = y then keyLe xs ys else itemLe x y

/-- The parameters that won most often, in the order of their items, with how often they did. -/
def mostSelected (selected : List Values) : Option (Values × Nat) :=
  let keys := selected.map fun values => values.insertionSort fun x y => itemLe x y
  (keys.dedup.insertionSort fun x y => keyLe x y).foldl (fun best key =>
    match best with
    | none => some (key, keys.count key)
    | some (_, most) => if most < keys.count key then some (key, keys.count key) else best) none

def foldWarnings (folds : List WalkForwardFold) (mostSelectedFolds : Nat) : List String :=
  if folds = [] then []
  else if folds.all fun fold => fold.trainScore.rejectedReason.isSome then
    ["Every candidate was rejected by the objective's gate in every fold, so the selections are ties at zero broken by " ++
      "parameter order, not choices. Any agreement between folds here is an artefact of that ordering and is not " ++
      "evidence of a stable parameter set."]
  else if mostSelectedFolds = 1 ∧ 1 < folds.length then
    ["No parameter set won more than one fold. The selection procedure is not converging on anything stable over this " ++
      "history, and the mean validation score should be read with that in mind."]
  else []

/-- The selection rolled forward, and each choice scored on bars that it did not see. -/
def walkForward (candles : List Candle) (trainBars validationBars : Int) (stepBars : Option Int)
    (space : Option (List ParameterSpec)) (maxCombinations maxFolds : Nat) : Except String WalkForwardReport := do
  let specs := space.getD defaultParameterSpace
  if specs = [] then throw "an empty parameter space has nothing to search"
  let ordered := orderedBy specs
  let possible := combinationsPossible ordered
  if maxCombinations < possible then
    throw (s!"this space would evaluate {possible} combinations per fold, above the {maxCombinations} ceiling. " ++
      "Narrow a range or raise the ceiling deliberately -- a walk-forward run pays this cost once per fold.")
  let windows ← walkForwardWindows candles.length trainBars validationBars stepBars
  if maxFolds < windows.length then
    throw (s!"this configuration produces {windows.length} folds, above the {maxFolds} ceiling. " ++
      "Each fold costs a full grid, so the two bounds multiply.")
  let folds := windows.filterMap (foldOf timeframe settings candles ordered)
  let most := mostSelected (folds.map WalkForwardFold.selected)
  let mostSelectedFolds := (most.map Prod.snd).getD 0
  return {
    space := ordered
    trainBars := trainBars.toNat
    validationBars := validationBars.toNat
    stepBars := (stepBars.getD validationBars).toNat
    folds := folds
    meanValidationScore := meanScore (folds.map WalkForwardFold.validationScore)
    meanTrainScore := meanScore (folds.map WalkForwardFold.trainScore)
    mostSelected := most.map Prod.fst
    mostSelectedFolds := mostSelectedFolds
    config := settings
    warnings :=
      (if windows = [] then
        [s!"{candles.length} bars cannot hold even one {trainBars}+{validationBars} window, so no walk-forward " ++
          "evaluation was performed. This is not a result of zero; it is the absence of one."]
      else if validationBars ≤ defaultWarmup then
        [s!"Each validation window holds {validationBars} bars, at or below the {defaultWarmup}" ++
          "-bar warm-up, so no fold can produce a trade. Windows are sliced strictly to prevent leakage and each pays " ++
          "its own warm-up."]
      else []) ++ foldWarnings folds mostSelectedFolds }

end WalkForward

end Aetheris.Optimize
