import Aetheris.Lib.Noting
import Aetheris.PaperSnapshot
import Aetheris.PaperWorld

namespace Aetheris.Autonomous

open Lib Coroutine Money Clock Enums Leverage RiskEngine OrderIdentity PaperRecords PaperService

inductive StrategyBias
  | longBias | shortBias | neutral
  deriving DecidableEq, Repr

def StrategyBias.value : StrategyBias → String
  | longBias => "LONG_BIAS"
  | shortBias => "SHORT_BIAS"
  | neutral => "NEUTRAL"

inductive StrategyStatus
  | ready | insufficientData | stale | unavailable | error
  deriving DecidableEq, Repr

def StrategyStatus.value : StrategyStatus → String
  | ready => "READY"
  | insufficientData => "INSUFFICIENT_DATA"
  | stale => "STALE"
  | unavailable => "UNAVAILABLE"
  | error => "ERROR"

structure StrategyResult where
  strategy : String
  version : String
  timeframe : Timeframe
  status : StrategyStatus
  bias : Option StrategyBias := none
  detail : Option String := none
  longConditions : List ConditionOutcome := []
  shortConditions : List ConditionOutcome := []
  source : Option String := none
  dataStatus : Option String := none
  dataAgeSeconds : Option Decimal := none

/-- What the candles of a symbol show: when the last bar closed, and what the rule set reads in them. -/
structure Evaluation where
  barClose : Timestamp
  result : StrategyResult
  atrPercent : Option Decimal := none

inductive AutonomousAction
  | entered | refused | managed | closed | noSignal | skipped
  deriving DecidableEq, Repr

/-- What an iteration has to say of one symbol. -/
structure Finding where
  symbol : String
  action : AutonomousAction
  detail : String
  decidedAt : Timestamp
  result : Option StrategyResult := none
  barClose : Option Timestamp := none
  atrPercent : Option Decimal := none
  side : Option OrderSide := none
  positionSide : Option PositionSide := none
  exitReason : Option PaperExitReason := none
  clientOrderId : Option String := none
  orderId : Option String := none
  positionId : Option String := none
  tradeId : Option String := none
  rejectionCode : Option RiskRejectionCode := none
  rejectionDetail : Option String := none
  leverage : Option LeverageDecision := none
  riskMaxLeverage : Option Decimal := none
  checksPerformed : List String := []
  proposedMargin : Option Decimal := none
  realizedPnl : Option Decimal := none

structure AutonomousDecision extends Finding where
  decisionId : String
  sequence : Nat
  timeframe : Timeframe

/-- The fields of the loop that an iteration changes. -/
structure Fields where
  decisions : List AutonomousDecision := []
  sequence : Nat := 0
  iterations : Nat := 0
  entries : Nat := 0
  refusals : Nat := 0
  closes : Nat := 0
  lastIterationAt : Option Timestamp := none
  lastDuration : Option Decimal := none
  consecutiveFailures : Dict String Nat := .empty
  excluded : Dict String String := .empty
  lastEntryAt : Dict String Timestamp := .empty
  totalFailureIterations : Nat := 0

/-- What an iteration waits for or touches: the paper service, on behalf of
someone, the candles of a symbol, and the loop's own fields. -/
inductive Effect : Type → Type 1
  | paper {β : Type} (origin : OrderOrigin) (f : PaperService.Effect β) : Effect β
  | candles (symbol : String) (now : Timestamp) : Effect (Except String Evaluation)
  | fields {β : Type} (f : Fields → β × Fields) : Effect β

abbrev LoopM := Coroutine Effect ServiceError

/-- A call of the paper service on behalf of someone. -/
def asked {α : Type} (origin : OrderOrigin) (c : ServiceM α) : LoopM α := c.expand fun f => perform (.paper origin f)

def autonomousOrigin : String := "autonomous-loop"

/-- The loop, with its service. `millis` is `int(t.timestamp() * 1000)`, which is
floating point, and `describe` an exception by its type and text. -/
structure AutonomousLoop where
  paper : PaperTradingService
  symbols : List String
  timeframe : Timeframe
  maxSymbols : Nat
  positionSizePercent : Decimal
  requestedLeverage : Decimal
  stopLossPercent : Option Decimal
  takeProfitPercent : Option Decimal
  trailingStopPercent : Option Decimal
  closeOnSignalFlip : Bool
  maxConsecutiveFailures : Nat
  maxDecisionLog : Nat
  millis : Timestamp → Int
  describe : ServiceError → String

namespace AutonomousLoop

variable (loop : AutonomousLoop)

def buildClientOrderId [Runtime] (symbol : String) (barClose : Timestamp) (side : OrderSide) : String :=
  let upper := Runtime.upper symbol
  let timeframe := loop.timeframe.value
  let epochMs := loop.millis barClose
  let direction := side.value
  s!"auto-{upper}-{timeframe}-{epochMs}-{direction}"

def record (finding : Finding) : LoopM AutonomousDecision :=
  perform (.fields fun s =>
    let sequence := s.sequence + 1
    let decision : AutonomousDecision :=
      { toFinding := finding, decisionId := s!"auto-decision-{sequence}", sequence := sequence
        timeframe := loop.timeframe }
    let decisions := s.decisions ++ [decision]
    (decision, { s with sequence := sequence, decisions := decisions.drop (decisions.length - loop.maxDecisionLog) }))

/-- Configured symbols, minus any dropped this session, capped. -/
def symbolUniverse : LoopM (List String) :=
  perform (.fields fun s => ((loop.symbols.filter fun symbol => symbol ∉ s.excluded.keys).take loop.maxSymbols, s))

def noteFailure (symbol : String) : LoopM Unit :=
  perform (.fields fun s =>
    let count := (s.consecutiveFailures.get? symbol).getD 0 + 1
    let s := { s with consecutiveFailures := s.consecutiveFailures.set symbol count }
    ((), if loop.maxConsecutiveFailures ≤ count then
      { s with excluded := s.excluded.set symbol (s!"Dropped for this session after {count} consecutive failures. A " ++
          "delisted or permanently broken instrument should stop costing quota.") }
    else s))

def clearFailures (symbol : String) : LoopM Unit :=
  perform (.fields fun s => ((), { s with consecutiveFailures := s.consecutiveFailures.erase symbol }))

def countClose : LoopM Unit := perform (.fields fun s => ((), { s with closes := s.closes + 1 }))

def countRefusal : LoopM Unit := perform (.fields fun s => ((), { s with refusals := s.refusals + 1 }))

def countEntry (symbol : String) (now : Timestamp) : LoopM Unit :=
  perform (.fields fun s => ((), { s with entries := s.entries + 1, lastEntryAt := s.lastEntryAt.set symbol now }))

def finishIteration (started : Timestamp) (failures evaluated : Nat) : LoopM Unit := do
  let now ← asked .autonomous (perform .utcnow)
  perform (.fields fun s => ((), { s with
    iterations := s.iterations + 1
    lastIterationAt := some started
    lastDuration := some (totalSeconds (now - started))
    totalFailureIterations := if 0 < evaluated ∧ evaluated ≤ failures then s.totalFailureIterations + 1 else 0 }))

variable [Runtime]

def entryRequest (symbol : String) (evaluation : Evaluation) (side : OrderSide) (margin : Decimal) :
    SubmitOrderRequest :=
  let result := evaluation.result
  { symbol := symbol
    side := side
    margin := some margin
    stopLossPercent := loop.stopLossPercent
    takeProfitPercent := loop.takeProfitPercent
    trailingStopPercent := loop.trailingStopPercent
    clientOrderId := some (loop.buildClientOrderId symbol evaluation.barClose side)
    strategyContext := some
      { strategyId := result.strategy
        strategyVersion := result.version
        timeframe := result.timeframe
        entryConditions := if result.bias = some .longBias then result.longConditions else result.shortConditions
        dataSource := result.source
        dataStatus := result.dataStatus
        dataAgeSeconds := result.dataAgeSeconds
        barCloseTime := some evaluation.barClose } }

/-- The loop proposes. It does not rule: submitting is how the risk engine is reached. -/
def proposeEntry (symbol : String) (evaluation : Evaluation) (account : PaperAccount) (now : Timestamp) :
    LoopM (List AutonomousDecision) := do
  let side : OrderSide := if evaluation.result.bias = some .longBias then .buy else .sell
  let margin := quantizeUsdt (account.availableBalance * loop.positionSizePercent / 100)
  let request := loop.entryRequest symbol evaluation side margin
  let outcome ← asked .autonomous (loop.paper.submitOrder request loop.requestedLeverage autonomousOrigin)
  let found : Finding :=
    { symbol := symbol
      action := .entered
      detail := orText outcome.detail "Entered."
      decidedAt := now
      result := some evaluation.result
      barClose := some evaluation.barClose
      atrPercent := evaluation.atrPercent
      side := some side
      clientOrderId := request.clientOrderId
      leverage := outcome.order.leverage
      riskMaxLeverage := outcome.riskMaxLeverage
      checksPerformed := outcome.checksPerformed }
  if outcome.accepted then
    countEntry symbol now
    return [← loop.record { found with
      orderId := some outcome.order.orderId
      positionId := outcome.position.map fun p => p.positionId
      proposedMargin := some ((outcome.position.map fun p => p.margin).getD margin) }]
  else
    countRefusal
    return [← loop.record { found with
      action := .refused
      detail := orText outcome.detail "Refused."
      rejectionCode := outcome.order.rejectionCode
      rejectionDetail := outcome.order.rejectionDetail
      proposedMargin := some margin }]

/-- Close on an opposed bias, otherwise report the position as managed. -/
def manageOpen (symbol : String) (side : PositionSide) (evaluation : Evaluation) (now : Timestamp) :
    LoopM (List AutonomousDecision) := do
  let result := evaluation.result
  let opposed := (side = .long ∧ result.bias = some .shortBias) ∨ (side = .short ∧ result.bias = some .longBias)
  let found : Finding :=
    { symbol := symbol, action := .managed, detail := "", decidedAt := now, result := some result
      barClose := some evaluation.barClose, positionSide := some side }
  let reading := (result.bias.map StrategyBias.value).getD result.status.value
  if loop.closeOnSignalFlip ∧ opposed ∧ result.status = .ready then
    let outcome ← asked .autonomous (loop.paper.closePosition symbol .signalFlip)
    let bias := (result.bias.map StrategyBias.value).getD "-"
    let held := PaperSnapshot.PositionSide.value side
    match outcome.accepted, outcome.trade with
    | true, some trade =>
        countClose
        let price := str trade.exitPrice
        let net := str trade.netPnl
        return [← loop.record { found with
          action := .closed
          detail := s!"The rule set now reads {bias}, which opposes the open {held}. Closed at " ++
            s!"{price} for a net {net} USDT."
          exitReason := some .signalFlip
          tradeId := some trade.tradeId
          realizedPnl := some trade.netPnl }]
    | _, _ =>
        let refusal := outcome.detail.getD "None"
        return [← loop.record { found with
          detail := s!"A signal-flip close was attempted and refused: {refusal}. " ++
            "The position is left open rather than closed at an unusable price."
          rejectionCode := outcome.order.rejectionCode
          rejectionDetail := outcome.order.rejectionDetail }]
  else
    return [← loop.record { found with
      detail := "Position held. Levels were evaluated and none fired; the rule set " ++ s!"reads {reading}." }]

def unready (result : StrategyResult) : String :=
  let status := result.status.value
  match result.detail.getD "" with
  | "" => s!"Analysis could not run: {status}."
  | detail => s!"Analysis could not run: {status}. {detail}"

/-- The decisions on a symbol, and whether it failed. -/
def evaluateSymbol (symbol : String) (account : PaperAccount) (now : Timestamp) :
    LoopM (List AutonomousDecision × Bool) := do
  match ← perform (.candles symbol now) with
  | .error problem =>
      let decision ← loop.record
        { symbol := symbol, action := .skipped, decidedAt := now
          detail := s!"Candles for {symbol} are unusable: {problem}. No entry " ++
            "is proposed and no price is invented." }
      return ([decision], true)
  | .ok evaluation =>
      let result := evaluation.result
      match account.positions.find? fun p => p.symbol = symbol with
      | some position => return (← loop.manageOpen symbol position.side evaluation now, false)
      | none =>
          let found : Finding :=
            { symbol := symbol, action := .skipped, detail := unready result, decidedAt := now, result := some result
              barClose := some evaluation.barClose, atrPercent := evaluation.atrPercent }
          if result.status ≠ .ready then return ([← loop.record found], true)
          else if result.bias = none ∨ result.bias = some .neutral then
            let decision ← loop.record { found with
              action := .noSignal
              detail := "The rule set reports NEUTRAL: the conditions for neither " ++
                "direction were met, or they conflicted. A finding, not a gap." }
            return ([decision], false)
          else return (← loop.proposeEntry symbol evaluation account now, false)

/-- A symbol that raises is skipped; only a cancellation goes through. -/
def attempt (symbol : String) (account : PaperAccount) (now : Timestamp) : LoopM (List AutonomousDecision × Bool) := do
  let skipped (detail : String) : LoopM (List AutonomousDecision × Bool) := do
    return ([← loop.record { symbol := symbol, action := .skipped, detail := detail, decidedAt := now }], true)
  match ← (loop.evaluateSymbol symbol account now).caught with
  | .ok found => return found
  | .error .cancelled => raise .cancelled
  | .error (.aetheris code message) => skipped s!"{code}: {message}"
  | .error (.symbolNotFound message) => skipped s!"NOT_FOUND: {message}"
  | .error e =>
      let problem := loop.describe e
      skipped s!"Evaluation raised {problem}"

/-- The account is read again after each symbol, so the second entry of an
iteration sees the margin the first one committed. -/
def evaluateAll (started : Timestamp) : List String → PaperAccount → LoopM (List AutonomousDecision × Nat)
  | [], _ => return ([], 0)
  | symbol :: rest, account => do
      let (decisions, failed) ← loop.attempt symbol account started
      if failed then loop.noteFailure symbol else clearFailures symbol
      let account ← asked .autonomous loop.paper.getAccount
      let (more, failures) ← evaluateAll started rest account
      return (decisions ++ more, failures + if failed then 1 else 0)

def recordClosed (started : Timestamp) : List PaperTrade → LoopM (List AutonomousDecision)
  | [] => return []
  | trade :: rest => do
      countClose
      let reason := trade.exitReason.value
      let price := str trade.exitPrice
      let net := str trade.netPnl
      let decision ← loop.record
        { symbol := trade.symbol
          action := .closed
          detail := s!"{reason} at {price} for a net {net} USDT."
          decidedAt := started
          exitReason := some trade.exitReason
          positionSide := some trade.side
          tradeId := some trade.tradeId
          realizedPnl := some trade.netPnl }
      return decision :: (← recordClosed started rest)

/-- Manage open positions, then evaluate each symbol for entry. -/
def runOnce : LoopM (List AutonomousDecision) := do
  let started ← asked .autonomous (perform .utcnow)
  match ← loop.symbolUniverse with
  | [] =>
      let decision ← loop.record
        { symbol := "-", action := .skipped, decidedAt := started
          detail := "No symbols are configured, so the loop evaluated nothing. Set " ++
            "AETHERIS_AUTO_SYMBOLS to choose what it watches; it does not " ++ "pick instruments on its own." }
      finishIteration started 0 0
      return [decision]
  | symbols => do
      let (account, closed) ← asked .autonomous loop.paper.tick
      let managed ← loop.recordClosed started closed
      let (decisions, failures) ← loop.evaluateAll started symbols account
      finishIteration started failures symbols.length
      return managed ++ decisions

end AutonomousLoop

end Aetheris.Autonomous
