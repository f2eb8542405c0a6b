import Aetheris.Brains
import Aetheris.PaperService
import Aetheris.Strategies

namespace Aetheris.Advice

open Lib Money Clock OrderIdentity RiskEngine PaperRecords Indicators Regime Strategies Intelligence Brains

section Orchestrator

def unavailableCapabilities : List String :=
  ["PARTIAL_EXIT: no engine in this build can close part of a position.",
   "STRUCTURE/SMC: not implemented; no structure evidence is produced.",
   "AUTONOMOUS_EXECUTION: this evaluation is advisory and places no order."]

/-- How many of the original conditions still hold, of those that could be checked. -/
def alignment (technical : BrainResult) : Option ThesisAlignment := do
  guard technical.state.isMeasured
  let checked := technical.evidence.filter fun row => row.satisfied.isSome
  guard (checked ≠ [])
  let held := (checked.filter fun row => row.satisfied = some true).length
  return {
    value := FixedPoint.halfUp 100 ((held : Decimal) / checked.length * 100)
    conditionsHeld := held
    conditionsTotal := checked.length }

/-- What the brains found. -/
structure Panel where
  market : BrainResult
  technical : BrainResult
  regime : BrainResult
  momentum : BrainResult
  structural : BrainResult
  position : BrainResult
  risk : BrainResult
  exit : BrainResult

def Panel.results (panel : Panel) : List BrainResult :=
  [panel.market, panel.technical, panel.regime, panel.momentum, panel.structural, panel.position, panel.risk, panel.exit]

/-- It is stated plainly that profit was not a factor, when there is profit. -/
def riskNote (observation : PositionObservation) : List String :=
  match observation.metrics.unrealizedPnl with
  | none => []
  | some pnl =>
      if 0 < pnl then ["The position is " ++ str pnl ++ " in profit. Profit is not a reason to close and did not affect " ++
        "this decision."]
      else []

/-- The ladder. The first match wins, and nothing below it is consulted. -/
def resolve (observation : PositionObservation) (panel : Panel) : PositionDecision × ThesisState × List String :=
  let orders := observation.unreconciledOrders
  let lock := RiskLockState.value observation.riskLock
  let nearTarget := panel.position.evidence.any fun row => row.name = "target_proximity" ∧ row.satisfied = some true
  let firstDetail (result : BrainResult) (otherwise : String) : String :=
    (result.evidence.head?.map Evidence.detail).getD otherwise
  if observation.riskLock.blocksEntries ∨ 0 < orders then
    (.blockedByRisk, .blockedByRisk,
      [orText observation.riskLockReason
        (if orders = 0 then s!"{lock} is engaged." else s!"{orders} order(s) await reconciliation."),
       "Risk state takes precedence over every other reading. No position advice is offered while it holds."])
  else if ¬ panel.market.usable then
    (.insufficientData, .insufficientData,
      [firstDetail panel.market "No usable mark.", "No decision is offered from data that could not be read."])
  else if ¬ panel.technical.state.isMeasured then
    (.insufficientData, .insufficientData,
      [firstDetail panel.technical "The original thesis could not be re-checked.",
       "Whether the thesis still holds is the question this answers, so it cannot be answered without one."])
  else if panel.exit.state = .adverse then
    (.exit, .exitConditionMet,
      ("The original thesis has failed and a second independent reading confirms it. This is a reversal, not a " ++
        "fluctuation.") ::
        (panel.exit.evidence.filter fun row => row.satisfied = some false).map Evidence.detail)
  else if panel.technical.state = .adverse ∨ panel.regime.state = .adverse then
    (.protect, .reversalWarning,
      ["An adverse reading is present but unconfirmed by a second, so the response is protection rather than exit."] ++
      (if panel.technical.state = .adverse then ["No original entry condition still holds."] else []) ++
      (if panel.regime.state = .adverse then ["The market regime now opposes the position."] else []))
  else if nearTarget then
    (.trail, .targetApproaching,
      ["Most of the planned distance to target has been covered while the thesis still holds, so the suggestion is to " ++
        "trail rather than to close."])
  else if panel.technical.state = .weakening ∨ panel.exit.state = .weakening then
    (.hold, .thesisWeakening,
      ["Some of the original conditions no longer hold, but the thesis has not failed and no reversal is confirmed."] ++
      riskNote observation)
  else
    (.hold, .thesisValid,
      ["Every original entry condition still holds and nothing contradicts the position."] ++
      (if panel.risk.state = .weakening then ["No stop is recorded, so this position has no defined risk."] else []) ++
      riskNote observation)

/-- Every brain is run on the observation; the last of them reads the others. -/
def consulted (observation : PositionObservation) : Panel :=
  let market := marketBrain observation
  let technical := technicalBrain observation
  let regime := regimeBrain observation
  let momentum := momentumVolumeBrain observation
  let structural := structureBrain observation
  let position := positionBrain observation
  let risk := riskBrain observation
  { market := market
    technical := technical
    regime := regime
    momentum := momentum
    structural := structural
    position := position
    risk := risk
    exit := exitBrain observation [market, technical, regime, momentum, structural, position, risk] }

/-- One decision for one open position. -/
def evaluatePosition (observation : PositionObservation) : PositionIntelligence :=
  let panel := consulted observation
  let (decision, thesisState, reasons) := resolve observation panel
  let qualities := (panel.results.filter fun result => result.brain ≠ .structural).map BrainResult.dataQuality
  { symbol := observation.position.symbol
    positionId := observation.position.positionId
    decision := decision
    thesisState := thesisState
    reasons := reasons
    brainResults := panel.results
    thesisAlignment := alignment panel.technical
    riskState := RiskLockState.value observation.riskLock
    dataQuality := if .unavailable ∈ qualities then .unavailable else if .degraded ∈ qualities then .degraded else .ok
    evaluatedAt := observation.now
    partialExitAvailable := false
    unavailableCapabilities := unavailableCapabilities }

end Orchestrator

section Service

/-- How many candles are fetched to evaluate one position, and of which timeframe. -/
def intelligenceCandles : Nat := 300

def intelligenceTimeframe : Timeframe := .h1

/-- What the market data service answers a request for klines with; nothing if it raises. -/
abbrev Klines := String → Timeframe → Nat → Option KlinesObservation

/-- What is made of the account, the candles and the orders that await reconciliation. -/
def observe (account : PaperAccount) (position : PaperPosition) (now : Timestamp) (takerFeeBps : Decimal) (klines : Klines)
    (pending : Nat) : PositionObservation :=
  let candles := ((klines position.symbol intelligenceTimeframe intelligenceCandles).filter fun observation =>
    observation.status = "OK").bind KlinesObservation.candles
  { position := position
    metrics := computePositionMetrics position now takerFeeBps
    now := now
    candles := candles
    regime := candles.map fun candles => classifyRegime candles defaultRegimeParams
    riskLock := account.session.lockState
    riskLockReason := account.session.lockReason
    unreconciledOrders := pending }

/-- One open position evaluated, if there is one for the symbol. It reads, and changes nothing. -/
def positionIntelligence [Runtime] (account : PaperAccount) (symbol : String) (now : Timestamp) (takerFeeBps : Decimal)
    (klines : Klines) (pending : Nat) : Option PositionIntelligence :=
  (account.positions.find? fun p => p.symbol = Runtime.upper symbol).map fun position =>
    evaluatePosition (observe account position now takerFeeBps klines pending)

end Service

end Aetheris.Advice
