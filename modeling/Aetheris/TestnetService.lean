import Aetheris.Lib.Coroutine
import Aetheris.OrderEngine

namespace Aetheris.TestnetService

open Lib Coroutine Money Clock Enums OrderRecords OrderStore OrderEngine OrderRepository OrderIdentity

/-- The leverage chain as a verdict reports it. The chain approves nothing
below the domain minimum of one. -/
structure LeverageDecision where
  approvedLeverage : Option Decimal := none
  approvedLeverage_min : ∀ l ∈ approvedLeverage, 1 ≤ l := by simp

structure RiskVerdict where
  approved : Bool
  detail : String
  leverage : LeverageDecision
  code : Option RiskRejectionCode := none
  checksPerformed : List String := []
  approved_code : approved → code = none := by simp
  refused_code : approved = false → code.isSome := by simp

structure TestnetOrderRequest where
  symbol : String
  side : OrderSide
  margin : Decimal
  requestedLeverage : Decimal
  stopLossPercent : Decimal
  intentKey : String
  takeProfitPercent : Option Decimal := none

structure TestnetOrderResult where
  accepted : Bool
  record : Option OrderRecord
  detail : String
  rejectionCode : Option RiskRejectionCode := none
  /-- A replay is never re-submitted to the venue. -/
  replayed : Bool := false
  checksPerformed : List String := []

structure ReconciliationSweep where
  checked : Nat
  resolved : Nat
  unreachable : Nat
  venueResetSuspected : Bool
  detail : String

inductive ServiceError
  | hedgeMode (message : String)
  | exchange (message : String)
  -- any other error of the application: a symbol that is not listed, say
  | aetheris (message : String)
  | order (error : OrderError)
  | other (message : String)

namespace ServiceError

def isExchangeError : ServiceError → Bool
  | hedgeMode _ | exchange _ => true
  | _ => false

def isAetherisError : ServiceError → Bool
  | hedgeMode _ | exchange _ | aetheris _ => true
  | _ => false

def text : ServiceError → String
  | hedgeMode message | exchange message | aetheris message | other message => message
  | order (.illegalTransition error) => error.detail
  | order (.keyError message) | order (.duplicateClientOrderId message) | order (.valueError message)
  | order (.databaseUnavailable message) => message
  | order (.validationError orderId) => orderId

end ServiceError

/-- What the service awaits. `rule` is the risk engine over the venue account
and the market as they are then; `lastPrice` and `stepSize` are what sizing
reads of a ticker and a listing. -/
inductive Effect (σ : Type) : Type → Type 1
  | utcnow : Effect σ Timestamp
  | requireOneWayMode : Effect σ Unit
  | createOrGet (intent : OrderIntent) : Effect σ (OrderRecord × Bool)
  | transact {α : Type} (step : OrderM σ α) : Effect σ α
  | rule (request : TestnetOrderRequest) (record : OrderRecord) (now : Timestamp) :
      Effect σ (Option RiskVerdict × String)
  | setLeverage (symbol : String) (leverage : Decimal) : Effect σ Decimal
  | setMarginMode (symbol : String) (mode : MarginMode) : Effect σ Unit
  | marginMode (symbol : String) : Effect σ MarginMode
  | lastPrice (symbol : String) : Effect σ (Option Decimal)
  | stepSize (symbol : String) : Effect σ Decimal
  | submit (record : OrderRecord) : Effect σ VenueOrderView
  | query (symbol clientOrderId : String) : Effect σ (Option VenueOrderView)
  | cancel (symbol clientOrderId : String) : Effect σ VenueOrderView

abbrev ServiceM (σ : Type) := Coroutine (Effect σ) ServiceError

structure TestnetExecutionService where
  accountId : String
  testnetEnabled : Bool

variable {σ : Type} [OrderRepository σ]

def rejected (record : OrderRecord) (code : RiskRejectionCode) (detail : String) (now : Timestamp)
    (rejectionCode : Option RiskRejectionCode) (checksPerformed : List String) :
    ServiceM σ TestnetOrderResult := do
  let _ ← perform (.transact (markRiskRejected record.orderId code detail now))
  let stored ← perform (.transact (get record.orderId))
  return { accepted := false, record := stored, detail := detail, rejectionCode := rejectionCode,
           checksPerformed := checksPerformed }

def refuse (record : OrderRecord) (code : RiskRejectionCode) (detail : String) (now : Timestamp) :
    ServiceM σ TestnetOrderResult :=
  rejected record code detail now (some code) []

def size (symbol : String) (margin leverage : Decimal) :
    ServiceM σ (Option ({ q : Decimal // 0 < q } × Decimal)) := do
  match ← perform (.lastPrice symbol) with
  | none => return none
  | some price =>
      match ← (perform (.stepSize symbol)).caught with
      | .error e => if e.isAetherisError then return none else raise e
      | .ok step =>
          if price ≤ 0 then return none
          else match floorToStep (margin * leverage / price) step with
            | .error message => raise (.other message)
            | .ok quantity => if h : 0 < quantity then return some (⟨quantity, h⟩, price) else return none

def unknownDetail : String :=
  "The order was sent and its outcome is unknown. It is recorded as " ++
  "UNKNOWN and will be reconciled against the venue; no new entry is " ++
  "permitted until it is settled."

/-- The uncertainty window. Never retried, and never assumed to have failed. -/
def send (record : OrderRecord) (checksPerformed : List String) : ServiceM σ TestnetOrderResult := do
  match ← (perform (.submit record)).caught with
  | .error e =>
      if e.isExchangeError then do
        let reason := e.text
        let now ← perform .utcnow
        let _ ← perform (.transact (markUnknown record.orderId
          s!"The submission did not return a usable answer: {reason}" now))
        let stored ← perform (.transact (get record.orderId))
        return { accepted := false, record := stored, detail := unknownDetail }
      else raise e
  | .ok view =>
      let state := view.state.value
      let now ← perform .utcnow
      let acked ← perform (.transact (applyVenueAck record.orderId (view.venueOrderId.getD "") view.state now))
      return { accepted := true, record := some acked, detail := s!"Accepted by the venue in state {state}.",
               checksPerformed := checksPerformed }

def withExecution (record : OrderRecord) (quantity : { q : Decimal // 0 < q }) (leverage : Decimal)
    (now : Timestamp) : OrderRecord :=
  { record with
    intent := { record.intent with quantity := quantity.1, quantity_pos := quantity.2 }
    venueLeverage := some leverage
    venueMarginMode := some .isolated
    updatedAt := now }

def place (request : TestnetOrderRequest) (symbol : String) (record : OrderRecord) (leverage : Decimal)
    (checksPerformed : List String) (now : Timestamp) : ServiceM σ TestnetOrderResult := do
  match ← size symbol request.margin leverage with
  | none => refuse record .staleData "The order could not be sized against current market data." now
  | some (quantity, _) =>
      let found ← perform (.transact (get record.orderId))
      let record ← perform (.transact (update (withExecution (found.getD record) quantity leverage now)))
      let _ ← perform (.transact (markSubmitting record.orderId now))
      let found ← perform (.transact (get record.orderId))
      send (found.getD record) checksPerformed

def confirmMargin (request : TestnetOrderRequest) (symbol : String) (record : OrderRecord) (leverage : Decimal)
    (checksPerformed : List String) (now : Timestamp) : ServiceM σ TestnetOrderResult := do
  let established : ServiceM σ MarginMode := do
    let _ ← perform (.setMarginMode symbol .isolated)
    perform (.marginMode symbol)
  match ← established.caught with
  | .error e =>
      let reason := e.text
      if e.isExchangeError then
        refuse record .modeNotEnabled s!"ISOLATED margin could not be established: {reason}" now
      else raise e
  | .ok confirmed =>
      let mode := confirmed.value
      if confirmed ≠ .isolated then
        refuse record .modeNotEnabled
          (s!"The venue reports {mode} margin for {symbol} after the " ++
            "change was requested. Refusing rather than trading under a margin " ++
            "mode nobody asked for.") now
      else place request symbol record leverage checksPerformed now

def confirmLeverage (request : TestnetOrderRequest) (symbol : String) (record : OrderRecord)
    (approvedLeverage : Decimal) (checksPerformed : List String) (now : Timestamp) :
    ServiceM σ TestnetOrderResult := do
  match ← (perform (.setLeverage symbol approvedLeverage)).caught with
  | .error e =>
      let reason := e.text
      if e.isExchangeError then
        refuse record .maxLeverage s!"The venue would not set leverage: {reason}" now
      else raise e
  | .ok applied =>
      let shownApplied := str applied
      let shownApproved := str approvedLeverage
      if applied ≠ approvedLeverage then
        refuse record .maxLeverage
          (s!"The venue applied {shownApplied}x where the risk engine approved " ++
            s!"{shownApproved}x. Refusing: an order placed at a leverage " ++
            "risk never approved is not the order that was ruled on.") now
      else confirmMargin request symbol record applied checksPerformed now

def submitRuled (request : TestnetOrderRequest) (symbol : String) (record : OrderRecord) (now : Timestamp) :
    ServiceM σ TestnetOrderResult := do
  let (verdict, detail) ← perform (.rule request record now)
  match verdict with
  | none => rejected record .staleData detail now (some .staleData) []
  | some verdict =>
      if !verdict.approved then
        rejected record (verdict.code.getD .modeNotEnabled) verdict.detail now verdict.code verdict.checksPerformed
      else match verdict.leverage.approvedLeverage with
        | none =>
            refuse record .maxLeverage "The risk engine approved without an approved leverage. Refusing." now
        | some approvedLeverage =>
            confirmLeverage request symbol record approvedLeverage verdict.checksPerformed now

def provisionalQuantity : Decimal := 1 / 100000000

theorem provisionalQuantity_pos : 0 < provisionalQuantity := by norm_num [provisionalQuantity]

variable [Runtime]

/-- The quantity is re-derived after approval. -/
def submitIntent (service : TestnetExecutionService) (request : TestnetOrderRequest) (symbol : String)
    (now : Timestamp) : OrderIntent where
  accountId := service.accountId
  symbol := symbol
  side := request.side
  orderType := .market
  quantity := provisionalQuantity
  mode := .testnet
  origin := .manual
  intentKey := buildIntentKey symbol request.side "testnet" request.intentKey
  createdAt := now
  quantity_pos := provisionalQuantity_pos
  price_pos := unpriced_pos

def submit (service : TestnetExecutionService) (request : TestnetOrderRequest) :
    ServiceM σ TestnetOrderResult := do
  let now ← perform .utcnow
  if !service.testnetEnabled then
    return { accepted := false, record := none, detail := "Testnet trading is not enabled.",
             rejectionCode := some .modeNotEnabled }
  else
    let symbol := Runtime.upper request.symbol
    match ← (perform .requireOneWayMode).caught with
    | .error (.hedgeMode message) =>
        return { accepted := false, record := none, detail := message, rejectionCode := some .modeNotEnabled }
    | .error e => raise e
    | .ok () =>
        let (record, created) ← perform (.createOrGet (submitIntent service request symbol now))
        if !created then
          return { accepted := record.state ≠ .rejected, record := some record,
                   detail := "This intent already has an order. Returning the persisted record " ++
                     "rather than placing a second one.",
                   replayed := true }
        else do
          let _ ← perform (.transact (markValidating record.orderId now))
          submitRuled request symbol record now

omit [Runtime]

def cancel (orderId : String) : ServiceM σ TestnetOrderResult := do
  match ← perform (.transact (get orderId)) with
  | none => return { accepted := false, record := none, detail := s!"No order {orderId}." }
  | some record =>
      let state := record.state.value
      if record.isTerminal then
        return { accepted := false, record := some record, detail := s!"{orderId} is already {state}." }
      else
        let now ← perform .utcnow
        match ← (perform (.cancel record.intent.symbol record.clientOrderId)).caught with
        | .error e =>
            let reason := e.text
            if e.isExchangeError then do
              let _ ← perform (.transact (markUnknown record.orderId
                s!"The cancellation did not return a usable answer: {reason}" now))
              let stored ← perform (.transact (get orderId))
              return { accepted := false, record := stored,
                       detail := "The cancellation was sent and its outcome is unknown. The order is " ++
                         "recorded as UNKNOWN and will be reconciled." }
            else raise e
        | .ok view =>
            let (resolved, _) ← perform (.transact (reconcile record.orderId (some view) true now))
            let state := resolved.state.value
            return { accepted := resolved.state = .cancelled, record := some resolved,
                     detail := s!"The venue reports {state}." }

abbrev Answers := List (String × Option VenueOrderView)

def queryAll : List OrderRecord → Answers → List String → ServiceM σ (Answers × List String)
  | [], answers, unreachable => return (answers, unreachable)
  | record :: rest, answers, unreachable => do
      match ← (perform (.query record.intent.symbol record.clientOrderId)).caught with
      | .ok view => queryAll rest (answers ++ [(record.orderId, view)]) unreachable
      | .error e =>
          if e.isExchangeError then queryAll rest answers (unreachable ++ [record.orderId]) else raise e

def resetDetail (vanished : Nat) : String :=
  s!"The venue reports no such order for all {vanished} orders " ++
  "queried in one sweep. That is a venue-reset signature, not " ++
  "evidence about any single order, so nothing is resolved. These " ++
  "orders remain unreconciled and continue to block new entries " ++
  "until a human settles them."

def recordReset (vanished : Nat) (now : Timestamp) : List String → ServiceM σ Unit
  | [] => return ()
  | orderId :: rest => do
      let _ ← perform (.transact (recordUnreadable orderId (resetDetail vanished) now))
      recordReset vanished now rest

def settleAll (answers : Answers) (unreachable : List String) (now : Timestamp) :
    List OrderRecord → Nat → ServiceM σ Nat
  | [], resolved => return resolved
  | record :: rest, resolved => do
      if unreachable.contains record.orderId then
        let _ ← perform (.transact (reconcile record.orderId none false now))
        settleAll answers unreachable now rest resolved
      else
        let view := (answers.lookup record.orderId).join
        let (after, _) ← perform (.transact (reconcile record.orderId view true now))
        settleAll answers unreachable now rest (if after.isTerminal then resolved + 1 else resolved)

/-- A wholesale disappearance is one event, and resolves nothing. -/
def conclude (candidates : List OrderRecord) (answers : Answers) (unreachable : List String) (now : Timestamp) :
    ServiceM σ ReconciliationSweep :=
  let checked := candidates.length
  let vanished := (answers.filter (fun answer => answer.2.isNone)).map Prod.fst
  let count := vanished.length
  if 2 ≤ count ∧ count = answers.length then do
    recordReset count now vanished
    return { checked := checked, resolved := 0, unreachable := unreachable.length, venueResetSuspected := true,
             detail := s!"All {count} queried orders vanished from the venue at once. " ++
               "Treated as a venue reset and requiring human review; no order was " ++
               "given a terminal state." }
  else do
    let resolved ← settleAll answers unreachable now candidates 0
    return { checked := checked, resolved := resolved, unreachable := unreachable.length,
             venueResetSuspected := false,
             detail := s!"{checked} order(s) checked, {resolved} settled by the venue." }

def reconcileAll : ServiceM σ ReconciliationSweep := do
  let now ← perform .utcnow
  let scan ← perform (.transact scanOpen)
  let candidates := scan.records.filter (fun r => r.reachedVenue && !r.isTerminal)
  let (answers, unreachable) ← queryAll candidates [] []
  conclude candidates answers unreachable now

end Aetheris.TestnetService
