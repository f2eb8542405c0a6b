import Aetheris.PaperRecords

namespace Aetheris.Intelligence

open Lib Money Clock Enums PaperRecords

section Domain

/-- How much the reading underneath an evaluation can be trusted. -/
inductive DataQuality
  | ok | degraded | unavailable
  deriving DecidableEq, Repr

/-- One brain's verdict on its own subject. -/
inductive BrainState
  | supportive | neutral | weakening | adverse | unavailable
  deriving DecidableEq, Repr

def BrainState.value : BrainState → String
  | supportive => "SUPPORTIVE"
  | neutral => "NEUTRAL"
  | weakening => "WEAKENING"
  | adverse => "ADVERSE"
  | unavailable => "UNAVAILABLE"

def BrainState.isMeasured (state : BrainState) : Bool := state ≠ .unavailable

inductive BrainName
  | market | technical | regime | momentumVolume | structural | position | risk | exit
  deriving DecidableEq, Repr

/-- One measurement, what it was compared against, and the outcome. -/
structure Evidence where
  name : String
  observed : Option String := none
  reference : Option String := none
  /-- Nothing where the comparison could not be made at all. -/
  satisfied : Option Bool := none
  detail : String
  deriving DecidableEq

structure BrainResult where
  brain : BrainName
  state : BrainState
  evidence : List Evidence := []
  dataQuality : DataQuality
  source : Option String := none
  observedAt : Timestamp
  deriving DecidableEq

def BrainResult.usable (result : BrainResult) : Bool := result.state.isMeasured && decide (result.dataQuality ≠ .unavailable)

/-- Whether the reason the position was opened still holds. -/
inductive ThesisState
  | thesisValid | thesisWeakening | reversalWarning | targetApproaching | riskIncreasing | exitConditionMet
  | insufficientData | blockedByRisk
  deriving DecidableEq, Repr

/-- What the orchestrator suggests. -/
inductive PositionDecision
  | hold | protect | trail | partialExit | exit | insufficientData | blockedByRisk
  deriving DecidableEq, Repr

/-- How many of the original entry conditions still hold. -/
structure ThesisAlignment where
  value : Decimal
  conditionsHeld : Nat
  conditionsTotal : Nat
  deriving DecidableEq

structure PositionIntelligence where
  symbol : String
  positionId : String
  decision : PositionDecision
  thesisState : ThesisState
  reasons : List String := []
  brainResults : List BrainResult := []
  thesisAlignment : Option ThesisAlignment := none
  riskState : String
  dataQuality : DataQuality
  evaluatedAt : Timestamp
  partialExitAvailable : Bool := false
  unavailableCapabilities : List String := []
  deriving DecidableEq

/-- Measured facts about one open position. -/
structure PositionMetrics where
  timeInTradeSeconds : Decimal
  bestPrice : Option Decimal
  worstPrice : Option Decimal
  mfePerUnit : Option Decimal
  maePerUnit : Option Decimal
  mfePercent : Option Decimal
  maePercent : Option Decimal
  breakEvenPrice : Option Decimal
  stopDistancePercent : Option Decimal
  targetDistancePercent : Option Decimal
  liquidationDistancePercent : Option Decimal
  rMultipleNow : Option Decimal
  remainingR : Option Decimal
  unrealizedPnl : Option Decimal
  unavailable : List String
  deriving DecidableEq

end Domain

section Metrics

/-- Four decimals, half to even. -/
def fourPlaces (value : Decimal) : Decimal := FixedPoint.halfEven (value * 10000) / 10000

def pct (numerator denominator : Decimal) : Option Decimal :=
  if denominator ≤ 0 then none else some (fourPlaces (numerator / denominator * 100))

/-- How far a price is in front of another, for the side. -/
def ahead (isLong : Bool) (price other : Decimal) : Decimal := if isLong then price - other else other - price

/-- The price at which closing now nets exactly zero, after both fees. -/
def breakEven (position : PaperPosition) (takerFeeBps : Decimal) : Option Decimal :=
  let quantity := position.quantity
  let feeRate := takerFeeBps / 10000
  let entryCost := position.entryPrice * quantity
  let denominator := if position.side = .long then quantity * (1 - feeRate) else quantity * (1 + feeRate)
  let price := (if position.side = .long then entryCost + position.entryFee else entryCost - position.entryFee) / denominator
  if quantity ≤ 0 ∨ denominator ≤ 0 then none else if 0 < price then some price else none

/-- The names of what could not be computed, in the order in which it is found missing. -/
def missingNames (position : PaperPosition) (breakEvenPrice : Option Decimal) : List String :=
  (if position.bestPrice.isNone then ["mfe"] else []) ++
  (if position.worstPrice.isNone then ["mae"] else []) ++
  (if breakEvenPrice.isNone then ["break_even_price"] else []) ++
  (if position.markPrice.isNone then
    ["stop_distance_percent", "target_distance_percent", "liquidation_distance_percent", "r_multiple_now", "remaining_r"]
  else
    (if position.stopPrice.isNone then ["stop_distance_percent"] else []) ++
    (if position.targetPrice.isNone then ["target_distance_percent"] else []) ++
    (if position.liquidationPrice.isNone then ["liquidation_distance_percent"] else []) ++
    match position.thesis.bind PositionThesis.plannedRiskPerUnit with
    | none => ["r_multiple_now", "remaining_r"]
    | some planned =>
        if planned ≤ 0 then ["r_multiple_now", "remaining_r"]
        else if position.stopPrice.isNone then ["remaining_r"] else []) ++
  (if position.unrealizedPnl.isNone then ["unrealized_pnl"] else [])

/-- Every measurable fact about one open position. The mark is taken from the position itself. -/
def computePositionMetrics (position : PaperPosition) (now : Timestamp) (takerFeeBps : Decimal) : PositionMetrics :=
  let isLong : Bool := position.side = .long
  let entry := position.entryPrice
  let mfeUnit := position.bestPrice.map fun best => max (ahead isLong best entry) 0
  let maeUnit := position.worstPrice.map fun worst => max (ahead isLong entry worst) 0
  let breakEvenPrice := breakEven position takerFeeBps
  let planned := (position.thesis.bind PositionThesis.plannedRiskPerUnit).filter fun planned => 0 < planned
  { timeInTradeSeconds := max (totalSeconds (now - position.openedAt)) 0
    bestPrice := position.bestPrice
    worstPrice := position.worstPrice
    mfePerUnit := mfeUnit
    maePerUnit := maeUnit
    mfePercent := mfeUnit.bind fun unit => pct unit entry
    maePercent := maeUnit.bind fun unit => pct unit entry
    breakEvenPrice := breakEvenPrice
    stopDistancePercent := do pct (ahead isLong (← position.markPrice) (← position.stopPrice)) (← position.markPrice)
    targetDistancePercent := do pct (ahead isLong (← position.targetPrice) (← position.markPrice)) (← position.markPrice)
    liquidationDistancePercent := do
      pct (ahead isLong (← position.markPrice) (← position.liquidationPrice)) (← position.markPrice)
    rMultipleNow := do return fourPlaces (ahead isLong (← position.markPrice) entry / (← planned))
    remainingR := do return fourPlaces (ahead isLong (← position.markPrice) (← position.stopPrice) / (← planned))
    unrealizedPnl := position.unrealizedPnl.map quantizeUsdt
    unavailable := (missingNames position breakEvenPrice).eraseDups }

end Metrics

end Aetheris.Intelligence
