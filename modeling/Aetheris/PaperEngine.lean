import Aetheris.Lib.Mutation
import Aetheris.PaperPricing

namespace Aetheris.PaperEngine

open Lib Mutation Money Clock Enums Leverage RiskEngine OrderIdentity PaperRecords PaperGate PaperPricing

/-- An engine call: what it wrote before it raised stays written. -/
abbrev PaperM := Mutation Repository PaperError

def raising {α : Type} : Except PaperError α → PaperM α
  | .ok a => pure a
  | .error e => throw e

def building (ok : Bool) (record : String) : PaperM Unit :=
  if ok then pure () else throw (.validation record)

def load : PaperM PaperState := return (← get).state

def modifyState (f : PaperState → PaperState) : PaperM Unit := modify fun r => { r with state := f r.state }

def nextSequence : PaperM Nat := do
  modifyState fun s => { s with sequence := s.sequence + 1 }
  return (← load).sequence

def onSession (f : MutableSession → MutableSession) : PaperM Unit :=
  modifyState fun s => { s with session := s.session.map f }

def updatePosition (symbol : String) (f : MutablePosition → MutablePosition) : PaperM Unit :=
  modifyState fun s => { s with positions := s.positions.update symbol f }

def touch (now : Timestamp) : PaperM Unit := modifyState fun s => { s with updatedAt := now }

def nominalQuantity : Decimal := 1 / 100000000

section Accounts

variable (config : PaperEngineConfig) (now : Timestamp) (marks : Marks)

def freshSession : MutableSession where
  sessionDate := date now
  profitTarget := config.dailyProfitTarget
  lossLimit := config.dailyLossLimit

def beginSession (r : Repository) : Repository :=
  { r with
    state := { r.state with session := some (freshSession config now) }
    journal := r.journal ++ [.started (date now) r.state.realizedPnl r.state.totalFees] }

def startSession : PaperM MutableSession := do
  modify (beginSession config now)
  return freshSession config now

def ensureSession : PaperM MutableSession := do
  match (← load).session with
  | some session => if session.sessionDate = date now then return session else startSession config now
  | none => startSession config now

def usableMark (symbol : String) (mark : MarkPrice) : Bool :=
  mark.isUsable && (checkMarketData symbol mark.status mark.ageSeconds config.maxDataAgeSeconds).isNone

def unrealized (p : MutablePosition) (markPrice : Option Decimal) : Option Decimal :=
  markPrice.map fun price =>
    let move := (price - p.entryPrice) * p.quantity
    quantizeUsdt (if p.side = .short then -move else move)

def positionModel (p : MutablePosition) : PaperPosition :=
  let marked := match marks.get? p.symbol with
    | none => p
    | some mark =>
        let usable := usableMark config p.symbol mark
        { p with
          markPrice := if usable then mark.lastPrice else none
          markSource := some mark.source
          markStatus := some (if usable then mark.status.value else DataStatus.stale.value) }
  { toMutablePosition := { marked with updatedAt := now }, unrealizedPnl := unrealized p marked.markPrice }

def reportPosition (p : MutablePosition) : PaperM PaperPosition := do
  let model := positionModel config now marks p
  building model.validates "PaperPosition"
  return model

def reportHeld : Option MutablePosition → PaperM (Option PaperPosition)
  | none => return none
  | some p => return some (← reportPosition config now marks p)

def reportPositions : List MutablePosition → PaperM (List PaperPosition)
  | [] => return []
  | p :: rest => return (← reportPosition config now marks p) :: (← reportPositions rest)

/-- Null when a position could not be marked; zero only when none is open. -/
def totalUnrealized (positions : List PaperPosition) : Option Decimal :=
  let marked := positions.filterMap PaperPosition.unrealizedPnl
  if positions.isEmpty then some 0
  else if marked.length = positions.length then some (quantizeUsdt marked.sum)
  else none

def accountOf (state : PaperState) (durability : Durability) (positions : List PaperPosition)
    (session : MutableSession) : PaperAccount :=
  let marginUsed := quantizeUsdt (positions.map fun p => p.margin).sum
  let unrealized := totalUnrealized positions
  -- every reported position carries the same time, so the freshest is the first
  let freshest := positions.find? fun p => p.markSource.isSome
  { accountId := state.accountId
    createdAt := state.createdAt
    updatedAt := state.updatedAt
    startingBalance := state.startingBalance
    balance := state.balance
    equity := quantizeUsdt (state.balance + unrealized.getD 0)
    availableBalance := quantizeUsdt (state.balance - marginUsed)
    marginUsed := marginUsed
    realizedPnl := state.realizedPnl
    unrealizedPnl := unrealized
    totalFees := state.totalFees
    positions := positions
    recentOrders := (state.orderLog.drop (state.orderLog.length - 25)).reverse
    recentTrades := (state.trades.drop (state.trades.length - 25)).reverse
    session := session
    autonomousEnabled := state.autonomousEnabled
    durability := durability
    markSource := freshest.bind fun p => p.markSource
    markStatus := freshest.bind fun p => p.markStatus }

def buildAccount : PaperM PaperAccount := do
  let state ← load
  let positions ← reportPositions config now marks state.positions.values
  let session ← ensureSession config now
  return accountOf state (← get).durability positions session

end Accounts

def logOrder (config : PaperEngineConfig) (order : PaperOrder) (s : PaperState) : PaperState :=
  let log := s.orderLog ++ [order]
  let overflow := log.length - config.maxOrderLog
  { s with
    orderLog := log.drop overflow
    ordersByClientId := (log.take overflow).foldl (fun index o => index.erase o.clientOrderId) s.ordersByClientId }

/-- Index the order under its client id, then append it to the log. -/
def recordOrder (config : PaperEngineConfig) (order : PaperOrder) : PaperM Unit := do
  modifyState fun s => { s with ordersByClientId := s.ordersByClientId.set order.clientOrderId order }
  modifyState (logOrder config order)

/-- What a submission passes on to the result that reports it. -/
structure Provenance where
  leverage : Option LeverageDecision := none
  checksPerformed : List String := []
  riskMaxLeverage : Option Decimal := none

def reject (config : PaperEngineConfig) (symbol : String) (request : SubmitOrderRequest) (clientOrderId : String)
    (refusal : RiskRefusal) (now : Timestamp) (marks : Marks) (reduceOnly : Bool) (from_ : Provenance) :
    PaperM PaperOrderResult := do
  let _ ← ensureSession config now
  onSession fun s => { s with ordersRejected := s.ordersRejected + 1 }
  let number ← nextSequence
  let order : PaperOrder := {
    orderId := s!"paper-order-{number}"
    clientOrderId := clientOrderId
    symbol := symbol
    side := request.side
    orderType := .market
    state := .rejected
    reduceOnly := reduceOnly
    requestedQuantity := (positive request.quantity).getD nominalQuantity
    leverage := from_.leverage
    createdAt := now
    updatedAt := now
    rejectionCode := some refusal.code
    rejectionDetail := some refusal.detail }
  building order.validates "PaperOrder"
  recordOrder config order
  touch now
  let account ← buildAccount config now marks
  let code := refusal.code.value
  let detail := refusal.detail
  return { accepted := false, order := order, account := account, detail := some s!"{code}: {detail}",
           checksPerformed := from_.checksPerformed, riskMaxLeverage := from_.riskMaxLeverage }

def generatedId (stem : String) : PaperM String := do
  let number ← nextSequence
  return s!"{stem}{number}"

def clientOrderIdOf (request : SubmitOrderRequest) : PaperM String :=
  match request.clientOrderId with
  | some id => if id = "" then generatedId "paper-" else pure id
  | none => generatedId "paper-"

def chargeSession (delta fee : Decimal) (s : MutableSession) : MutableSession :=
  { s with realizedPnl := quantizeUsdt (s.realizedPnl + delta), fees := quantizeUsdt (s.fees + fee) }

/-- Move balance, realised PnL and fees, of the account and of the day, together. -/
def charge (delta fee : Decimal) (s : PaperState) : PaperState :=
  { s with
    balance := quantizeUsdt (s.balance + delta)
    realizedPnl := quantizeUsdt (s.realizedPnl + delta)
    totalFees := quantizeUsdt (s.totalFees + fee)
    session := s.session.map (chargeSession delta fee) }

section Entries

variable (config : PaperEngineConfig) (request : SubmitOrderRequest) (symbol clientOrderId : String)
  (entry : Entry) (now : Timestamp)

def entryFee : Decimal := quantizeUsdt (entry.notional * config.takerFeeBps / bps)

def openedPosition (orderId positionId : String) : MutablePosition :=
  let isLong := request.side = .buy
  let side : PositionSide := if isLong then .long else .short
  let stop := request.stopLossPercent.map fun percent => levelAt entry.price percent (!isLong)
  let target := request.takeProfitPercent.map fun percent => levelAt entry.price percent isLong
  { positionId := positionId
    symbol := symbol
    side := side
    quantity := entry.quantity
    entryPrice := entry.price
    notional := entry.notional
    margin := entry.margin
    approvedLeverage := entry.approvedLeverage
    entryFee := entryFee config entry
    openedAt := now
    openingOrderId := orderId
    stopPrice := stop
    targetPrice := target
    trailingStopPercent := request.trailingStopPercent
    liquidationPrice := liquidationPrice entry.price entry.approvedLeverage isLong
    thesis := some (captureThesis request side entry.price stop target entry.quantity now)
    updatedAt := now
    trailExtreme := request.trailingStopPercent.map fun _ => entry.price
    markPrice := some entry.price
    markSource := some entry.priceSource
    markStatus := some DataStatus.ok.value
    bestPrice := some entry.price
    worstPrice := some entry.price }

/-- The fee is realised the moment it is paid. -/
def bookEntry (position : MutablePosition) (r : Repository) : Repository :=
  let charged := charge (-position.entryFee) position.entryFee r.state
  { r with
    state := { charged with
      session := charged.session.map fun s => { s with ordersSubmitted := s.ordersSubmitted + 1 }
      positions := charged.positions.set position.symbol position }
    journal := r.journal ++ [.opened (date position.openedAt) position.toEntryTerms] }

def openPosition (leverage : LeverageDecision) (priceAgeSeconds : Option Decimal) (marks : Marks)
    (riskVerdictDetail : Option String) (from_ : Provenance) : PaperM PaperOrderResult := do
  let _ ← ensureSession config now
  let orderNumber ← nextSequence
  let positionNumber ← nextSequence
  let position := openedPosition config request symbol entry now s!"paper-order-{orderNumber}"
    s!"paper-position-{positionNumber}"
  modify (bookEntry position)
  let fillNumber ← nextSequence
  let fill : PaperFill := {
    fillId := s!"paper-fill-{fillNumber}"
    price := entry.price
    quantity := entry.quantity
    fee := position.entryFee
    filledAt := now
    priceSource := entry.priceSource
    priceAgeSeconds := priceAgeSeconds }
  building fill.validates "PaperFill"
  let order : PaperOrder := {
    orderId := position.openingOrderId
    clientOrderId := clientOrderId
    symbol := symbol
    side := request.side
    orderType := .market
    state := .filled
    requestedQuantity := entry.quantity
    filledQuantity := entry.quantity
    averageFillPrice := some entry.price
    fills := [fill]
    leverage := some leverage
    createdAt := now
    updatedAt := now
    riskVerdictDetail := riskVerdictDetail }
  building order.validates "PaperOrder"
  recordOrder config order
  touch now
  let model ← reportPosition config now marks position
  let account ← buildAccount config now marks
  let quantity := str entry.quantity
  let price := str entry.price
  let source := entry.priceSource
  let times := str entry.approvedLeverage
  let margin := str entry.margin
  let fee := str position.entryFee
  return { accepted := true, order := order, position := some model, account := account,
           checksPerformed := from_.checksPerformed, riskMaxLeverage := from_.riskMaxLeverage,
           detail := some (s!"PAPER order filled: {quantity} {symbol} at {price} ({source}), " ++
             s!"{times}x, margin {margin} USDT, fee {fee} USDT. Simulation only " ++
             "-- nothing was sent to an exchange.") }

end Entries

section Exits

variable (config : PaperEngineConfig) (now : Timestamp)

/-- Realised, not unrealised. An engaged lock is never released here. -/
def applyDailyLock (s : MutableSession) : MutableSession :=
  let target := str s.profitTarget
  let limit := str s.lossLimit
  let realised := str s.realizedPnl
  if s.lockState ≠ .none then s
  else if s.profitTarget ≤ s.realizedPnl then
    { s with
      lockState := .dailyProfitTarget
      lockReason := some (s!"Daily profit target of {target} USDT reached " ++
        s!"(realised {realised} USDT). No new entries today; open " ++ "positions are still managed.")
      lockedAt := some now }
  else if s.realizedPnl ≤ s.lossLimit then
    { s with
      lockState := .dailyLossLimit
      lockReason := some (s!"Daily loss limit of {limit} USDT reached " ++
        s!"(realised {realised} USDT). No new entries today; open " ++ "positions are still managed.")
      lockedAt := some now }
  else s

def lockEvents (before after : Option MutableSession) : List Event :=
  match before, after with
  | some b, some a => if b.lockState = .none ∧ a.lockState ≠ .none then [.locked a.sessionDate] else []
  | _, _ => []

structure Exit where
  price : Decimal
  gross : Decimal
  fee : Decimal
  deriving DecidableEq

def exitAt (position : MutablePosition) (price : Decimal) : Exit :=
  let gross := (price - position.entryPrice) * position.quantity
  let exitNotional := quantizeUsdt (position.quantity * price)
  { price := price
    gross := quantizeUsdt (if position.isLong then gross else -gross)
    fee := quantizeUsdt (exitNotional * config.takerFeeBps / bps) }

def tradeOf (position : MutablePosition) (exit : Exit) (reason : PaperExitReason) (tradeId : String)
    (balanceAfter : Decimal) : PaperTrade :=
  let net := quantizeUsdt (exit.gross - exit.fee - position.entryFee)
  { tradeId := tradeId
    symbol := position.symbol
    side := if position.isLong then .long else .short
    quantity := position.quantity
    entryPrice := position.entryPrice
    exitPrice := exit.price
    notional := position.notional
    margin := position.margin
    approvedLeverage := position.approvedLeverage
    openedAt := position.openedAt
    closedAt := now
    exitReason := reason
    grossPnl := exit.gross
    fees := quantizeUsdt (position.entryFee + exit.fee)
    netPnl := net
    returnPercent := if 0 < position.margin then quantizeUsdt (net / position.margin * 100) else 0
    balanceAfter := balanceAfter }

/-- The entry fee left the balance when the position opened, so only the gross
result and the exit fee move it now. -/
def bookExit (position : MutablePosition) (exit : Exit) (reason : PaperExitReason) (tradeId : String)
    (r : Repository) : Repository :=
  let charged := charge (exit.gross - exit.fee) exit.fee r.state
  let trade := tradeOf now position exit reason tradeId charged.balance
  let trades := charged.trades ++ [trade]
  let session := charged.session.map fun s => applyDailyLock now { s with tradesClosed := s.tradesClosed + 1 }
  { r with
    state := { charged with
      session := session
      trades := trades.drop (trades.length - config.maxTradeLog)
      positions := charged.positions.erase position.symbol
      updatedAt := now }
    journal := r.journal ++ .closed (date now) position.toEntryTerms trade :: lockEvents r.state.session session }

def close (position : MutablePosition) (mark : MarkPrice) (reason : PaperExitReason) : PaperM PaperTrade := do
  let (exitPrice, _) ← raising (fillPrice mark (!position.isLong) config.slippageBps)
  let exit := exitAt config position exitPrice
  let _ ← ensureSession config now
  let number ← nextSequence
  let tradeId := s!"paper-trade-{number}"
  let balance := (charge (exit.gross - exit.fee) exit.fee (← load)).balance
  modify (bookExit config now position exit reason tradeId)
  return tradeOf now position exit reason tradeId balance

def observe (mark : MarkPrice) (price : Decimal) (p : MutablePosition) : MutablePosition :=
  recordExcursion { p with
    markPrice := some price
    markSource := some mark.source
    markStatus := some mark.status.value
    updatedAt := now } price

def unmark (mark : Option MarkPrice) (p : MutablePosition) : MutablePosition :=
  { p with
    markPrice := none
    markSource := mark.map MarkPrice.source
    markStatus := some ((mark.map MarkPrice.status).getD .unavailable).value }

def usablePrice (symbol : String) (mark : Option MarkPrice) : Option (MarkPrice × Decimal) :=
  mark.bind fun mark => if usableMark config symbol mark then mark.lastPrice.map (fun price => (mark, price)) else none

def manage (marks : Marks) (symbol : String) : PaperM (Option PaperTrade) := do
  match (← load).positions.get? symbol with
  | none => return none
  | some position =>
      match usablePrice config symbol (marks.get? symbol) with
      | none =>
          updatePosition symbol (unmark (marks.get? symbol))
          return none
      | some (mark, price) =>
          updatePosition symbol (observe now mark price)
          let position := observe now mark price position
          match triggeredExit position price with
          | some reason => return some (← close config now position mark reason)
          | none =>
              updatePosition symbol (advanceTrail price)
              return none

def manageAll (marks : Marks) : List String → PaperM (List PaperTrade)
  | [] => return []
  | symbol :: rest => do
      let trade ← manage config now marks symbol
      return trade.toList ++ (← manageAll marks rest)

end Exits

section Calls

variable (config : PaperEngineConfig)

def replayed (existing : PaperOrder) (symbol detail : String) (now : Timestamp) (marks : Marks) :
    PaperM PaperOrderResult := do
  let position ← reportHeld config now marks ((← load).positions.get? symbol)
  let account ← buildAccount config now marks
  return { accepted := existing.isFilled, order := { existing with idempotentReplay := true },
           position := position, account := account, detail := some detail }

def replay (clientOrderId : String) (now : Timestamp) (marks : Marks) : PaperM (Option PaperOrderResult) := do
  match (← load).ordersByClientId.get? clientOrderId with
  | none => return none
  | some existing =>
      let _ ← ensureSession config now
      some <$> replayed config existing existing.symbol
        (s!"Client order id {clientOrderId} was already submitted; the original " ++
          "outcome is returned unchanged and nothing new was opened or ruled on.") now marks

def snapshot (now : Timestamp) (marks : Marks) : PaperM PaperAccount := do
  let _ ← ensureSession config now
  buildAccount config now marks

def tick (now : Timestamp) (marks : Marks) : PaperM (PaperAccount × List PaperTrade) := do
  let _ ← ensureSession config now
  let closed ← manageAll config now marks (← load).positions.keys
  touch now
  return (← buildAccount config now marks, closed)

def reset (now : Timestamp) (startingBalance : Option Decimal) : PaperM PaperAccount := do
  modify fun r => { r with state := fresh (startingBalance.getD config.startingBalance) now, journal := [] }
  let _ ← ensureSession config now
  buildAccount config now .empty

def setEmergencyStop (engaged : Bool) (reason : String) (now : Timestamp) : PaperM PaperAccount := do
  let _ ← ensureSession config now
  modifyState fun s => { s with
    emergencyStopped := engaged
    emergencyReason := if engaged then some reason else none }
  touch now
  buildAccount config now .empty

/-- What is done about the decision on a submission. -/
def conclude (request : SubmitOrderRequest) (symbol clientOrderId : String) (now : Timestamp)
    (leverage : LeverageDecision) (priceAgeSeconds : Option Decimal) (marks : Marks)
    (riskVerdictDetail : Option String) (from_ : Provenance) : Except Decline Entry → PaperM PaperOrderResult
  | .error (.refused refusal) => reject config symbol request clientOrderId refusal now marks false {}
  | .error (.ruled refusal) => reject config symbol request clientOrderId refusal now marks false from_
  | .error (.raised error) => throw error
  | .ok entry =>
      openPosition config request symbol clientOrderId entry now leverage priceAgeSeconds marks riskVerdictDetail
        from_

variable [Runtime]

def refuse (request : SubmitOrderRequest) (now : Timestamp) (code : RiskRejectionCode) (detail : String)
    (marks : Marks) (from_ : Provenance) : PaperM PaperOrderResult := do
  let _ ← ensureSession config now
  let clientOrderId ← clientOrderIdOf request
  reject config (Runtime.upper request.symbol) request clientOrderId ⟨code, detail⟩ now marks false from_

def submitOrder (request : SubmitOrderRequest) (now : Timestamp) (mark : MarkPrice)
    (filters : Option SymbolFilters) (leverage : LeverageDecision) (paperEnabled : Bool) (marks : Marks)
    (riskVerdictDetail : Option String) (checksPerformed : List String) (riskMaxLeverage : Option Decimal) :
    PaperM PaperOrderResult := do
  let _ ← ensureSession config now
  let symbol := Runtime.upper request.symbol
  let marks := marks.setDefault symbol mark
  let clientOrderId ← clientOrderIdOf request
  let state ← load
  match state.ordersByClientId.get? clientOrderId with
  | some existing =>
      replayed config existing symbol
        (s!"Client order id {clientOrderId} was already submitted; the " ++
          "original outcome is returned unchanged and nothing new was opened.") now marks
  | none =>
      conclude config request symbol clientOrderId now leverage mark.ageSeconds marks riskVerdictDetail
        ⟨some leverage, checksPerformed, riskMaxLeverage⟩
        (considerOrder config state request symbol mark filters leverage paperEnabled)

def closePosition (symbol : String) (now : Timestamp) (mark : MarkPrice) (reason : PaperExitReason)
    (marks : Marks) : PaperM PaperOrderResult := do
  let _ ← ensureSession config now
  let key := Runtime.upper symbol
  let marks := marks.setDefault key mark
  let held := (← load).positions.get? key
  let clientOrderId ← generatedId "paper-close-"
  let side : OrderSide := if held.all (fun p => p.isLong) then .sell else .buy
  let request : SubmitOrderRequest := { symbol := key, side := side }
  match held with
  | none =>
      reject config key request clientOrderId ⟨.positionSize, s!"No open paper position in {key} to close."⟩ now
        marks true {}
  | some position =>
      let problem := (checkMarketData key mark.status mark.ageSeconds config.maxDataAgeSeconds).or
        (refusing (mark.isUsable = false) .staleData
          (orText mark.detail s!"No usable price is available to close {key}.") none)
      match problem with
      | some refusal => reject config key request clientOrderId refusal now marks true {}
      | none =>
          let trade ← close config now position mark reason
          let number ← nextSequence
          let order : PaperOrder := {
            orderId := s!"paper-order-{number}"
            clientOrderId := clientOrderId
            symbol := key
            side := side
            orderType := .market
            state := .filled
            reduceOnly := true
            requestedQuantity := trade.quantity
            filledQuantity := trade.quantity
            averageFillPrice := some trade.exitPrice
            createdAt := now
            updatedAt := now }
          building order.validates "PaperOrder"
          recordOrder config order
          touch now
          let account ← buildAccount config now marks
          let exitPrice := str trade.exitPrice
          let net := str trade.netPnl
          return { accepted := true, order := order, trade := some trade, account := account,
                   detail := some (s!"PAPER position in {key} closed at {exitPrice} for a net " ++
                     s!"{net} USDT. Simulation only; no order was sent anywhere.") }

end Calls

end Aetheris.PaperEngine
