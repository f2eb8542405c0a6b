import Mathlib.Data.List.DropRight
import Aetheris.Setup

namespace Aetheris.Strategies

open Lib Money Clock OrderIdentity PaperRecords Autonomous Indicators TrendMomentum Setup

section Preparation

/-- Why a sequence of candles cannot be used as it is given. -/
inductive PreparationProblem
  | noProblem | duplicateTimestamps | ambiguousOrder | noClosedCandles
  deriving DecidableEq, Repr

/-- Closed, ascending, unique candles, or the reason that there are none. -/
structure PreparedCandles where
  candles : List Candle
  problem : PreparationProblem := .noProblem
  detail : Option String := none
  reversedOrder : Bool := false
  droppedForming : Nat := 0

def StrictlyAscending (candles : List Candle) : Prop := candles.IsChain fun a b => a.openTime < b.openTime

def StrictlyDescending (candles : List Candle) : Prop := candles.IsChain fun a b => b.openTime < a.openTime

instance (candles : List Candle) : Decidable (StrictlyAscending candles) := inferInstanceAs (Decidable (List.IsChain _ _))

instance (candles : List Candle) : Decidable (StrictlyDescending candles) := inferInstanceAs (Decidable (List.IsChain _ _))

/-- The bars without those at the end that have not closed. -/
def closedBars (candles : List Candle) (now : Timestamp) : List Candle :=
  candles.rdropWhile fun bar => now < bar.closeTime

def dropForming (ordered : List Candle) (reversedOrder : Bool) (now : Timestamp) : PreparedCandles :=
  let closed := closedBars ordered now
  let dropped := ordered.length - closed.length
  if closed = [] then
    { candles := []
      problem := .noClosedCandles
      detail := some s!"All {ordered.length} candles are still forming"
      reversedOrder := reversedOrder
      droppedForming := dropped }
  else { candles := closed, reversedOrder := reversedOrder, droppedForming := dropped }

/-- Candles normalised for the indicators: the order is settled before forming bars are dropped. -/
def prepareCandles (candles : List Candle) (now : Timestamp) : PreparedCandles :=
  if candles = [] then { candles := [], problem := .noClosedCandles, detail := some "No candles supplied" }
  else if ¬ (candles.map Candle.openTime).Nodup then
    { candles := []
      problem := .duplicateTimestamps
      detail := some ("Candle series contains repeated open times; which bar is authoritative cannot be " ++
        "determined") }
  else if StrictlyAscending candles then dropForming candles false now
  else if StrictlyDescending candles then dropForming candles.reverse true now
  else
    { candles := []
      problem := .ambiguousOrder
      detail := some ("Candle series is neither ascending nor descending; the intended order cannot be " ++ "inferred") }

end Preparation

section Evaluation

def strategyKey : String := "trend_momentum"

def strategyVersion : String := "1.0.0"

def summarise (bias : StrategyBias) (longConditions shortConditions : List ConditionOutcome) : String :=
  match bias with
  | .longBias => "All four long conditions are satisfied."
  | .shortBias => "All four short conditions are satisfied."
  | .neutral =>
      let longMet := (longConditions.filter ConditionOutcome.satisfied).length
      let shortMet := (shortConditions.filter ConditionOutcome.satisfied).length
      s!"Conditions conflict: {longMet}/4 long and {shortMet}/4 short are satisfied, so neither rule set fires."

/-- The strategy over prepared candles. -/
def evaluateFromCandles (candles : List Candle) (timeframe : Timeframe) (params : TrendMomentumParams) :
    StrategyResult :=
  match computeIndicatorValues candles params with
  | none =>
      let needed := warmupBars params
      { strategy := strategyKey
        version := strategyVersion
        timeframe := timeframe
        status := .insufficientData
        detail := some (s!"Needs more than {needed} closed candles for every required indicator to warm up; " ++
          s!"{candles.length} available") }
  | some values =>
      let (longConditions, shortConditions, bias) := evaluateConditions values params
      { strategy := strategyKey
        version := strategyVersion
        timeframe := timeframe
        status := .ready
        bias := some bias
        detail := some (summarise bias longConditions shortConditions)
        longConditions := longConditions
        shortConditions := shortConditions }

/-- The strategy for live analysis, behind the gate on its freshness. -/
def evaluate (key : String) (candles : List Candle) (context : DataContext) (now : Timestamp)
    (params : TrendMomentumParams) : StrategyResult :=
  let status := context.dataStatus
  let refused (status : StrategyStatus) (detail : Option String) : StrategyResult :=
    { strategy := key
      version := strategyVersion
      timeframe := context.timeframe
      status := status
      detail := detail
      source := some context.source
      dataStatus := some context.dataStatus
      dataAgeSeconds := context.ageSeconds }
  if key ≠ strategyKey then refused .unavailable (some ("No strategy registered under '" ++ key ++ "'"))
  else if status ≠ "OK" then
    refused .stale (some s!"Candle data is {status}; no bias is reported from data that is not current")
  else if context.ageSeconds = none then
    refused .stale (some ("Candle freshness could not be verified (the venue supplied no event timestamp), so the " ++
      "analysis is not usable"))
  else
    let prepared := prepareCandles candles now
    if prepared.problem ≠ .noProblem then refused .unavailable prepared.detail
    else
      { evaluateFromCandles prepared.candles context.timeframe params with
        source := some context.source
        dataStatus := some context.dataStatus
        dataAgeSeconds := context.ageSeconds }

end Evaluation

section Service

variable [Runtime]

/-- What a request for klines was answered with. -/
structure KlinesObservation where
  candles : Option (List Candle)
  source : String
  status : String
  ageSeconds : Option Decimal

def KlinesObservation.context (observation : KlinesObservation) (symbol : String) (timeframe : Timeframe) :
    DataContext where
  symbol := Runtime.upper symbol
  timeframe := timeframe
  source := observation.source
  dataStatus := observation.status
  ageSeconds := observation.ageSeconds

/-- The strategy that the analysis service answers with. -/
def strategy (observation : KlinesObservation) (symbol : String) (timeframe : Timeframe) (key : String)
    (now : Timestamp) (params : TrendMomentumParams) : StrategyResult :=
  evaluate key (observation.candles.getD []) (observation.context symbol timeframe) now params

/-- The setup that the analysis service answers with. -/
def setup (observation : KlinesObservation) (symbol : String) (timeframe : Timeframe) (now : Timestamp)
    (params : TrendMomentumParams) (setupParams : SetupParams) : TradeSetup :=
  evaluateSetup (observation.candles.getD []) (observation.context symbol timeframe) now params setupParams

end Service

end Aetheris.Strategies
